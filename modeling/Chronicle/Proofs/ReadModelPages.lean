import Chronicle.Proofs.Pages
import Chronicle.Proofs.ReadModelQueries
import Chronicle.Service.ReadModels

set_option autoImplicit false

/-!
# Pages of read models

What a search answers page by page, next to the whole search. Main statement: as long as nothing
changes, each page is the slice of the whole answer at its offset, plain searches with the same
limit and cursor agree, all numbers stay words, and following the cursors shows everything once
and in order (`pages_of_search`).
-/

namespace Chronicle

namespace ReadModelQuery

theorem page_map {α β : Type} (q : ReadModelQuery) (f : α → β) (items : List α) :
    q.page (items.map f) = (q.page items).map f := by
  unfold page
  cases q.limit with
  | none => exact List.map_drop.symm
  | some n =>
      show ((items.map f).drop _).take n = ((items.drop _).take n).map f
      rw [List.map_take, List.map_drop]

/-- The answer to a query is the answer without its skip and limit, cut. -/
theorem execute_eq_page (q : ReadModelQuery) (candidates : List ReadModel) :
    q.execute candidates =
      q.page (({ q with skip := none, limit := none } : ReadModelQuery).execute candidates) :=
  (q.page_map q.shape _).symm

end ReadModelQuery

namespace ReadModelSearch

variable (s : ReadModelSearch)

/-- The search without limit and cursor. -/
def whole : ReadModelSearch := { s with limit := none, cursor := none, paginated := false }

/-- The search for the page of a limit at a cursor. -/
def pageFrom (limit : Nat) (cursor : Option Nat) : ReadModelSearch :=
  { s with limit := some limit, cursor, paginated := true }

/-- The search for the read models of a page without the page around them. -/
def plainFrom (limit : Nat) (cursor : Option Nat) : ReadModelSearch :=
  { s with limit := some limit, cursor, paginated := false }

/-- One read model beyond the page is fetched, unless the limit is the greatest number. -/
theorem fetched_pageFrom {limit : Nat} (h : limit < limitBound) (cursor : Option Nat) :
    (s.pageFrom limit cursor).fetched limit < limitBound ∧
      (limit < (s.pageFrom limit cursor).fetched limit ∨
        limitBound ≤ (s.pageFrom limit cursor).fetched limit + 1) := by
  show min (limit + 1) (limitBound - 1) < limitBound ∧ _
  show _ ∧ (limit < min (limit + 1) (limitBound - 1) ∨
    limitBound ≤ min (limit + 1) (limitBound - 1) + 1)
  omega

end ReadModelSearch

namespace Shelf

open ReadModelSearch

variable {shelf : Shelf} {typeName : ReadModelTypeName} {s : ReadModelSearch}

/-- What a search finds on the shelf when nothing is cut off. -/
def findings (shelf : Shelf) (typeName : ReadModelTypeName) (s : ReadModelSearch) :
    List ReadModel :=
  shelf.query { s.query typeName with skip := none, limit := none }

/-- A search with a limit answers the findings from its cursor on, as many as it fetches. -/
theorem query_eq_findings (shelf : Shelf) (typeName : ReadModelTypeName) (s : ReadModelSearch)
    {limit : Nat} (hlimit : s.limit = some limit) :
    shelf.query (s.query typeName) =
      ((shelf.findings typeName s).drop (s.cursor.getD 0)).take (s.fetched limit) := by
  have hcut := (s.query typeName).execute_eq_page (shelf.candidates (s.query typeName))
  have hfetched : (s.query typeName).limit = some (s.fetched limit) := by
    show s.limit.map s.fetched = _
    rw [hlimit, Option.map_some]
  rw [ReadModelQuery.page, hfetched] at hcut
  exact hcut

theorem search_whole (shelf : Shelf) (typeName : ReadModelTypeName) (s : ReadModelSearch) :
    ReadModelService.search registry typeName s.whole shelf =
      (.ok (.items (shelf.findings typeName s)), shelf) := rfl

theorem search_plainFrom (shelf : Shelf) (typeName : ReadModelTypeName) (s : ReadModelSearch)
    (limit : Nat) (cursor : Option Nat) :
    ReadModelService.search registry typeName (s.plainFrom limit cursor) shelf =
      (.ok (.items (((shelf.findings typeName s).drop (cursor.getD 0)).take limit)), shelf) := by
  have hfound := query_eq_findings shelf typeName (s.plainFrom limit cursor) rfl
  show (Except.ok (SearchResult.items (shelf.query _)), shelf) = _
  rw [hfound]
  rfl

/-- The shelf, unchanged by it, answers a page to the search at a cursor. -/
def Answers (shelf : Shelf) (typeName : ReadModelTypeName) (s : ReadModelSearch) (limit : Nat)
    (cursor : Option Nat) (p : Page ReadModel) : Prop :=
  ReadModelService.search registry typeName (s.pageFrom limit cursor) shelf =
    (.ok (.page p), shelf)

theorem answers_slice {limit : Nat} (hlimit : limit < limitBound)
    (hsize : (shelf.findings typeName s).length < limitBound) (cursor : Option Nat) :
    shelf.Answers typeName s limit cursor
      (.slice (shelf.findings typeName s) limit (cursor.getD 0)) := by
  have hfound := query_eq_findings shelf typeName (s.pageFrom limit cursor) rfl
  obtain ⟨-, hextra⟩ := s.fetched_pageFrom hlimit cursor
  -- at the greatest limit no more is fetched, but then nothing can be left
  have henough : limit < (s.pageFrom limit cursor).fetched limit ∨
      ((shelf.findings typeName s).drop (cursor.getD 0)).length ≤
        (s.pageFrom limit cursor).fetched limit := by
    rw [List.length_drop]
    omega
  show (Except.ok (SearchResult.page (.ofRest (cursor.getD 0) limit (shelf.query _))), shelf) = _
  rw [hfound]
  exact congrArg (fun p => (Except.ok (SearchResult.page p), shelf)) (Page.ofRest_take henough)

/--
On a shelf that nobody changes, for every type, filter, order and projection, and every limit from
1 up to the greatest word: with `all` as the answer to the search without limit and cursor, which
has as many elements as a word can say, the page at an offset is the slice of `all` there, it has a
cursor exactly if elements are left, which is the place of the first of them, the plain search with
the same limit and cursor answers the same read models, and no number that is computed on the way
leaves the range of words; the cursors can be followed to a page without one, and whoever does so
sees every element of `all` once and in order.
-/
theorem pages_of_search (shelf : Shelf) (typeName : ReadModelTypeName) (s : ReadModelSearch)
    (limit : Nat) (hpos : 1 ≤ limit) (hlimit : limit < limitBound) :
    ∃ all, ReadModelService.search registry typeName s.whole shelf = (.ok (.items all), shelf) ∧
      (all.length < limitBound →
        (∀ offset < limitBound, ∃ p,
          ReadModelService.search registry typeName (s.pageFrom limit (some offset)) shelf =
            (.ok (.page p), shelf) ∧
          p.items = (all.drop offset).take limit ∧
          p.count = p.items.length ∧
          p.cursor =
            (if offset + p.items.length < all.length then some (offset + p.items.length)
              else none) ∧
          ReadModelService.search registry typeName (s.plainFrom limit (some offset)) shelf =
            (.ok (.items p.items), shelf) ∧
          (s.pageFrom limit (some offset)).fetched limit < limitBound ∧
          offset + p.count < limitBound) ∧
        (∃ pages, Page.Walk (shelf.Answers typeName s limit) none pages) ∧
        ∀ pages, Page.Walk (shelf.Answers typeName s limit) none pages →
          pages.flatMap Page.items = all) := by
  refine ⟨shelf.findings typeName s, search_whole shelf typeName s, fun hsize => ⟨?_, ?_, ?_⟩⟩
  · intro offset hoffset
    have hplace := Page.offset_add_count_le (shelf.findings typeName s) limit offset
    refine ⟨_, answers_slice hlimit hsize _, rfl, rfl, Page.cursor_slice _ _ _,
      search_plainFrom _ _ _ _ _, (s.fetched_pageFrom hlimit _).1, ?_⟩
    exact Nat.lt_of_le_of_lt hplace (Nat.max_lt.mpr ⟨hoffset, hsize⟩)
  · exact Page.exists_walk hpos (answers_slice hlimit hsize) none
  · intro pages hwalk
    -- a search answers one page only
    have hslice : ∀ cursor p, shelf.Answers typeName s limit cursor p →
        p = Page.slice (shelf.findings typeName s) limit (cursor.getD 0) := by
      intro cursor p hanswer
      have hsame := (answers_slice hlimit hsize cursor).symm.trans hanswer
      exact (SearchResult.page.inj (Except.ok.inj (Prod.ext_iff.mp hsame).1)).symm
    exact hwalk.flatMap_items hslice

def queen : ReadModelId := ⟨"queen", by decide, by decide, by decide, by decide⟩

/-- The shelf of an ace, a king and a queen. -/
def threeCards : Shelf := ((empty.insert (card ace)).insert (card king)).insert (card queen)

/-- Three cards by suit on pages of two: the second page holds one card and is the last. -/
theorem pages_of_three_cards :
    let bySuit : ReadModelSearch := { sortBy := some (.object [("suit", .string "ASC")]) }
    (∃ p, ReadModelService.search registry cardType (bySuit.pageFrom 2 (some 2)) threeCards =
        (.ok (.page p), threeCards) ∧ p.items = [card queen] ∧ p.cursor = none) ∧
      ∃ pages, Page.Walk (threeCards.Answers cardType bySuit 2) none pages ∧
        pages.flatMap Page.items = [card ace, card king, card queen] := by
  intro bySuit
  obtain ⟨all, hall, hpages⟩ :=
    pages_of_search threeCards cardType bySuit 2 (by decide) (by decide +kernel)
  have hcards : [card ace, card king, card queen] = all :=
    SearchResult.items.inj (Except.ok.inj (Prod.ext_iff.mp hall).1)
  subst hcards
  obtain ⟨hpage, ⟨pages, hwalk⟩, hseen⟩ := hpages (by decide +kernel)
  obtain ⟨p, hanswer, hitems, -, hcursor, -⟩ := hpage 2 (by decide +kernel)
  refine ⟨⟨p, hanswer, hitems, ?_⟩, pages, hwalk, hseen pages hwalk⟩
  rw [hcursor, hitems]
  rfl

end Shelf

end Chronicle
