import Chronicle.Proofs.EntityPages
import Chronicle.Proofs.ReadModelPages
import Chronicle.Registry.Files

set_option autoImplicit false

/-!
# Pages lead on

Whoever follows the cursors of a service has to come to an end, in whatever state the registry
under it is and wherever the reader starts. Main statements: with every limit but 0, and without
one, the cursor of a page is beyond the offset that was asked for, and there is one way to follow
the cursors, which ends (`pages_advance`); with the limit 0 a page is empty, and its cursor is the
offset that was asked for (`pages_stay_without_room`).
-/

namespace Chronicle

section Shows

variable {σ : Type}

/-- Queries are answered from a shelf that the state has, and leave the state as it is. -/
def ReadModelRegistry.Shows (r : ReadModelRegistry σ) (shelf : σ → Shelf) : Prop :=
  ∀ q s, r.query q s = (.ok ((shelf s).query q), s)

/-- Queries are answered from a ledger that the state has, and leave the state as it is. -/
def EventRegistry.Shows (r : EventRegistry σ) (ledger : σ → Ledger) : Prop :=
  ∀ q order limit s, r.query q order limit s = (.ok ((ledger s).query q order limit), s)

theorem Shelf.shows : Shelf.registry.Shows id := fun _ _ => rfl

theorem ReadModelArchive.shows : ReadModelArchive.registry.Shows ReadModelArchive.shelf :=
  fun _ _ => rfl

theorem MemoryEvents.shows : MemoryEvents.registry.Shows MemoryEvents.ledger :=
  fun _ _ _ _ => rfl

theorem EventArchive.shows : EventArchive.registry.Shows fun s => s.memory.ledger :=
  fun _ _ _ _ => rfl

end Shows

/-! ## Pages of read models -/

/-- The search for the page at a cursor. -/
def ReadModelSearch.pageAt (s : ReadModelSearch) (cursor : Option Nat) : ReadModelSearch :=
  { s with cursor, paginated := true }

namespace ReadModelService

open ReadModelSearch

variable {σ : Type} {r : ReadModelRegistry σ} {shelf : σ → Shelf}

/-- The service, which leaves the registry as it is, shows a page at a cursor of the search. -/
def ShowsPage (r : ReadModelRegistry σ) (x : σ) (typeName : ReadModelTypeName)
    (s : ReadModelSearch) (cursor : Option Nat) (p : Page ReadModel) : Prop :=
  search r typeName (s.pageAt cursor) x = (.ok (.page p), x)

/-- There is one page at a cursor, that of what the shelf answers. -/
theorem showsPage_iff (h : r.Shows shelf) {x : σ} {typeName : ReadModelTypeName}
    {s : ReadModelSearch} {cursor : Option Nat} {p : Page ReadModel} :
    ShowsPage r x typeName s cursor p ↔
      p = (s.pageAt cursor).pageOf ((shelf x).query ((s.pageAt cursor).query typeName)) := by
  rw [ShowsPage, search, Fallible.bind_of_ok (h _ x)]
  constructor
  · intro hp
    exact (SearchResult.page.inj (Except.ok.inj (Prod.ext_iff.mp hp).1)).symm
  · rintro rfl
    rfl

/-- A page leads forward, and not beyond the findings, whatever its limit unless it is 0. -/
theorem forward_pageOf (shelf : Shelf) (typeName : ReadModelTypeName) {s : ReadModelSearch}
    {next : Nat} (hlimit : s.limit ≠ some 0)
    (h : (s.pageOf (shelf.query (s.query typeName))).cursor = some next) :
    s.cursor.getD 0 < next ∧ next < (shelf.findings typeName s).length := by
  rw [pageOf] at h
  cases hs : s.limit with
  | none =>
      rw [hs] at h
      cases h
  | some limit =>
      rw [hs] at h hlimit
      have hpositive : 0 < limit := Nat.pos_of_ne_zero fun hzero => hlimit (congrArg some hzero)
      refine Page.forward_ofRest hpositive ?_ h
      -- what is fetched is cut from the findings behind the offset
      rw [Shelf.query_eq_findings shelf typeName s hs, List.length_take, List.length_drop]
      exact Nat.min_le_right _ _

/-- Pages of read models lead on, whatever their limit unless it is 0. -/
theorem advances_search (h : r.Shows shelf) (x : σ) (typeName : ReadModelTypeName)
    {s : ReadModelSearch} (hlimit : s.limit ≠ some 0) :
    Page.Advances (ShowsPage r x typeName s) ((shelf x).findings typeName s).length := by
  refine .of_forward (fun cursor => ⟨_, (showsPage_iff h).mpr rfl⟩) ?_ ?_
  · intro cursor p q hp hq
    rw [(showsPage_iff h).mp hp, (showsPage_iff h).mp hq]
  · intro cursor p next hp hnext
    rw [(showsPage_iff h).mp hp] at hnext
    exact forward_pageOf (s := s.pageAt cursor) (shelf x) typeName hlimit hnext

end ReadModelService

/-! ## Pages of entities -/

namespace EventService

variable {σ : Type} {r : EventRegistry σ} {ledger : σ → Ledger}

/-- The service, which leaves the registry as it is, shows a page of entities at a cursor. -/
def ShowsIds (r : EventRegistry σ) (x : σ) (entityType : EntityTypeName) (limit : Nat)
    (cursor : Option Nat) (p : Page EntityId) : Prop :=
  entityIds r entityType limit cursor x = (.ok p, x)

/-- The entities of a type with a live event, by the newest of their events. -/
def idsOf (l : Ledger) (entityType : EntityTypeName) : List EntityId :=
  distinctFrom [] ((l.query { EventQuery.events.live with entityType := some entityType }
    .newestFirst none).map fun s => s.envelope.entityId)

theorem advances_entityIds (h : r.Shows ledger) (x : σ) (entityType : EntityTypeName)
    {limit : Nat} (hlimit : 0 < limit) :
    Page.Advances (ShowsIds r x entityType limit) (idsOf (ledger x) entityType).length := by
  refine Page.advances_slice hlimit fun cursor p => ?_
  rw [ShowsIds, entityIds, Fallible.bind_of_ok (h _ _ _ x)]
  constructor
  · intro hp
    exact (Except.ok.inj (Prod.ext_iff.mp hp).1).symm
  · rintro rfl
    rfl

end EventService

open ReadModelService EventService

/--
In every state of the registries in memory and in files, the pages of every search for read models
and of the entities of every type lead on, unless their limit is 0: a cursor is beyond the offset
that was asked for and names one of the results, so it is a word if their number is, and from every
start the cursors lead, in finitely many pages, to one without a cursor.
-/
theorem pages_advance :
    (∀ (typeName : ReadModelTypeName) (s : ReadModelSearch), s.limit ≠ some 0 →
      (∀ shelf : Shelf, Page.Advances (ShowsPage Shelf.registry shelf typeName s)
        (shelf.findings typeName s).length) ∧
      ∀ a : ReadModelArchive, Page.Advances (ShowsPage ReadModelArchive.registry a typeName s)
        (a.shelf.findings typeName s).length) ∧
    ∀ (entityType : EntityTypeName) (limit : Nat), limit ≠ 0 →
      (∀ m : MemoryEvents, Page.Advances (ShowsIds MemoryEvents.registry m entityType limit)
        (idsOf m.ledger entityType).length) ∧
      ∀ a : EventArchive, Page.Advances (ShowsIds EventArchive.registry a entityType limit)
        (idsOf a.memory.ledger entityType).length := by
  refine ⟨fun typeName s hs => ⟨fun shelf => ?_, fun a => ?_⟩,
    fun entityType limit hlimit => ⟨fun m => ?_, fun a => ?_⟩⟩
  · exact advances_search Shelf.shows shelf typeName hs
  · exact advances_search ReadModelArchive.shows a typeName hs
  · exact advances_entityIds MemoryEvents.shows m entityType (Nat.pos_of_ne_zero hlimit)
  · exact advances_entityIds EventArchive.shows a entityType (Nat.pos_of_ne_zero hlimit)

section Instances

open MemoryEvents (cart twoCarts)

/-- One card and one cart on a page: whoever looks through three cards and two carts has seen at
most four pages of cards and three of carts. -/
theorem pages_advance_by_one :
    (∀ seen,
        Page.Trail (ShowsPage Shelf.registry Shelf.threeCards Shelf.cardType { limit := some 1 })
          none seen → seen.length ≤ 4) ∧
      ∀ seen, Page.Trail (ShowsIds MemoryEvents.registry twoCarts cart.entityType 1) none seen →
        seen.length ≤ 3 := by
  obtain ⟨hcards, hcarts⟩ := pages_advance
  refine ⟨fun seen hseen => ?_, fun seen hseen => ?_⟩
  · obtain ⟨hshelf, -⟩ := hcards Shelf.cardType { limit := some 1 } (by decide)
    obtain ⟨pages, -, hlength, hbegins⟩ := (hshelf Shelf.threeCards).ends none
    have hfindings : (Shelf.threeCards.findings Shelf.cardType { limit := some 1 }).length = 3 := by
      decide +kernel
    rw [hfindings] at hlength
    exact Nat.le_trans (hbegins seen hseen).length_le hlength
  · obtain ⟨hmemory, -⟩ := hcarts cart.entityType 1 (by decide)
    obtain ⟨pages, -, hlength, hbegins⟩ := (hmemory twoCarts).ends none
    have hids : (idsOf twoCarts.ledger cart.entityType).length = 2 := by decide +kernel
    rw [hids] at hlength
    exact Nat.le_trans (hbegins seen hseen).length_le hlength

/-- With the limit 0 a reader is sent back to the same offset: no cursor is beyond the one that was
asked for, and the cursors lead nowhere. -/
theorem pages_stay_without_room :
    (¬∀ (shelf : Shelf) (typeName : ReadModelTypeName) (s : ReadModelSearch)
        (cursor : Option Nat) (p : Page ReadModel) (next : Nat),
        ShowsPage Shelf.registry shelf typeName s cursor p → p.cursor = some next →
          cursor.getD 0 < next) ∧
      (¬∀ (m : MemoryEvents) (entityType : EntityTypeName) (limit : Nat) (cursor : Option Nat)
        (p : Page EntityId) (next : Nat),
        ShowsIds MemoryEvents.registry m entityType limit cursor p → p.cursor = some next →
          cursor.getD 0 < next) ∧
      ¬∃ pages, Page.Walk (ShowsIds MemoryEvents.registry twoCarts cart.entityType 0) (some 0)
        pages := by
  have hcarts : ShowsIds MemoryEvents.registry twoCarts cart.entityType 0 (some 0)
      ⟨[], some 0⟩ := rfl
  have hcards : ShowsPage Shelf.registry Shelf.threeCards Shelf.cardType { limit := some 0 }
      (some 0) ⟨[], some 0⟩ := rfl
  refine ⟨fun h => ?_, fun h => ?_, ?_⟩
  · exact Nat.lt_irrefl 0 (h _ _ _ _ _ _ hcards rfl)
  · exact Nat.lt_irrefl 0 (h _ _ _ _ _ _ hcarts rfl)
  · rintro ⟨pages, hwalk⟩
    refine hwalk.not_of_stays fun q hq => ?_
    have hsame := (Prod.ext_iff.mp (hcarts.symm.trans hq)).1
    rw [← Except.ok.inj hsame]

end Instances

end Chronicle
