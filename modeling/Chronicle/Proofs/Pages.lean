import Chronicle.Service.Paging

set_option autoImplicit false

/-!
# Pages of a list

A list cut into pages: what stands on the page at an offset, and what a reader sees who follows
the cursors. Main statements: with a positive limit there is a walk from every start to a page
without a cursor (`exists_walk`), and whoever walks sees the elements from the start on, each once
and in order (`Walk.flatMap_items`), on full pages but for the last (`Walk.eq_append`).
-/

namespace Chronicle.Page

variable {α : Type} {all rest : List α} {offset limit : Nat}

/-- The page of a list at an offset. -/
def slice (all : List α) (limit offset : Nat) : Page α := ofRest offset limit (all.drop offset)

theorem items_slice (all : List α) (limit offset : Nat) :
    (slice all limit offset).items = (all.drop offset).take limit := rfl

/-- A page does not depend on more than one element beyond it. -/
theorem ofRest_take {n : Nat} (h : limit < n ∨ rest.length ≤ n) :
    ofRest offset limit (rest.take n) = ofRest offset limit rest := by
  rcases h with hmore | hall
  · have hitems : (rest.take n).take limit = rest.take limit := by
      rw [List.take_take, Nat.min_eq_left (Nat.le_of_lt hmore)]
    have hleft : limit < (rest.take n).length ↔ limit < rest.length := by
      rw [List.length_take]
      omega
    simp only [ofRest, hitems, hleft]
  · rw [List.take_of_length_le hall]

/-- There is a cursor exactly if elements are left behind the page, and it is the place of the
first of them. -/
theorem cursor_slice (all : List α) (limit offset : Nat) :
    (slice all limit offset).cursor =
      if offset + (slice all limit offset).items.length < all.length then
        some (offset + (slice all limit offset).items.length)
      else none := by
  have hleft : limit < (all.drop offset).length ↔
      offset + ((all.drop offset).take limit).length < all.length := by
    rw [List.length_take, List.length_drop]
    omega
  exact ite_congr (propext hleft) (fun _ => rfl) fun _ => rfl

/-- The place behind a page is the offset of an empty page, or within the list. -/
theorem offset_add_count_le (all : List α) (limit offset : Nat) :
    offset + (slice all limit offset).count ≤ max offset all.length := by
  rw [count, items_slice, List.length_take, List.length_drop]
  omega

/-- A page that has a successor is full. -/
theorem cursor_eq_some (all : List α) {next : Nat}
    (h : (slice all limit offset).cursor = some next) :
    next = offset + limit ∧ next < all.length := by
  rw [cursor_slice, Option.ite_none_right_eq_some, items_slice, List.length_take,
    List.length_drop, Option.some.injEq] at h
  omega

theorem length_of_cursor {next : Nat} (h : (slice all limit offset).cursor = some next) :
    (slice all limit offset).items.length = limit := by
  obtain ⟨hnext, hwithin⟩ := cursor_eq_some all h
  rw [items_slice, List.length_take, List.length_drop]
  omega

/-- The elements from an offset on are those of the page there and those from its cursor on. -/
theorem items_append_drop {next : Nat} (h : (slice all limit offset).cursor = some next) :
    (slice all limit offset).items ++ all.drop next = all.drop offset := by
  obtain ⟨rfl, -⟩ := cursor_eq_some all h
  rw [items_slice, ← List.drop_drop]
  exact List.take_append_drop limit (all.drop offset)

/-- The last page shows all that is left. -/
theorem items_of_last (h : (slice all limit offset).cursor = none) :
    (slice all limit offset).items = all.drop offset := by
  rw [slice, ofRest, ite_eq_right_iff] at h
  refine List.take_of_length_le (Nat.le_of_not_lt fun hmore => ?_)
  exact Option.some_ne_none _ (h hmore)

/-! ## Following the cursors -/

/-- The pages seen from a cursor on, where `answers` says which page is answered at which cursor;
the last of them has no cursor. -/
inductive Walk (answers : Option Nat → Page α → Prop) : Option Nat → List (Page α) → Prop
  | last {cursor : Option Nat} {p : Page α} (h : answers cursor p) (hlast : p.cursor = none) :
      Walk answers cursor [p]
  | next {cursor : Option Nat} {p : Page α} {offset : Nat} {pages : List (Page α)}
      (h : answers cursor p) (hnext : p.cursor = some offset)
      (hrest : Walk answers (some offset) pages) : Walk answers cursor (p :: pages)

variable {answers : Option Nat → Page α → Prop} {cursor : Option Nat} {pages : List (Page α)}

theorem Walk.mono {answers' : Option Nat → Page α → Prop} (h : Walk answers cursor pages)
    (hsub : ∀ cursor p, answers cursor p → answers' cursor p) : Walk answers' cursor pages := by
  induction h with
  | last h hlast => exact .last (hsub _ _ h) hlast
  | next h hnext _ ih => exact .next (hsub _ _ h) hnext ih

/-- A page whose cursor leads to the page itself is followed by no last one. -/
theorem Walk.not_of_stays (h : Walk answers (some offset) pages)
    (hstays : ∀ p, answers (some offset) p → p.cursor = some offset) : False := by
  generalize hcursor : some offset = cursor at h
  induction h with
  | last h hlast =>
      subst hcursor
      rw [hstays _ h] at hlast
      cases hlast
  | next h hnext _ ih =>
      subst hcursor
      rw [hstays _ h] at hnext
      exact ih hnext

/-- Whoever follows the cursors sees each element from the start on once and in order. -/
theorem Walk.flatMap_items
    (hanswers : ∀ cursor p, answers cursor p → p = slice all limit (cursor.getD 0))
    (h : Walk answers cursor pages) : pages.flatMap items = all.drop (cursor.getD 0) := by
  induction h with
  | last h hlast =>
      cases hanswers _ _ h
      rw [List.flatMap_singleton, items_of_last hlast]
  | next h hnext _ ih =>
      cases hanswers _ _ h
      rw [List.flatMap_cons, ih]
      exact items_append_drop hnext

/-- Whoever follows the cursors sees full pages and then one without a cursor, which is empty only
if there was nothing to see. -/
theorem Walk.eq_append
    (hanswers : ∀ cursor p, answers cursor p → p = slice all limit (cursor.getD 0))
    (h : Walk answers cursor pages) :
    ∃ front last, pages = front ++ [last] ∧ (∀ p ∈ front, p.items.length = limit) ∧
      last.cursor = none ∧ (last.items = [] → all.drop (cursor.getD 0) = []) := by
  induction h with
  | last h hlast =>
      cases hanswers _ _ h
      refine ⟨[], _, rfl, nofun, hlast, fun hempty => ?_⟩
      rw [← items_of_last hlast, hempty]
  | next h hnext _ ih =>
      cases hanswers _ _ h
      obtain ⟨front, last, rfl, hfull, hlast, hsome⟩ := ih
      obtain ⟨-, hwithin⟩ := cursor_eq_some all hnext
      refine ⟨_ :: front, last, rfl, ?_, hlast, fun hempty => ?_⟩
      · exact List.forall_mem_cons.mpr ⟨length_of_cursor hnext, hfull⟩
      · -- a page at a cursor is not empty
        have hnone : all.drop _ = [] := hsome hempty
        exact absurd (List.drop_eq_nil_iff.mp hnone) (Nat.not_le_of_lt hwithin)

/-! ## Getting on -/

/-- The pages seen so far by whoever starts at a cursor and follows the next ones. -/
inductive Trail (answers : Option Nat → Page α → Prop) : Option Nat → List (Page α) → Prop
  | one {cursor : Option Nat} {p : Page α} (h : answers cursor p) : Trail answers cursor [p]
  | next {cursor : Option Nat} {p : Page α} {offset : Nat} {pages : List (Page α)}
      (h : answers cursor p) (hnext : p.cursor = some offset)
      (hrest : Trail answers (some offset) pages) : Trail answers cursor (p :: pages)

/-- The pages lead on: each cursor is beyond the offset that was asked for and within `total`
results, and from every start there is one walk to a page without a cursor, of which all that is
seen from there is a beginning. -/
structure Advances (answers : Option Nat → Page α → Prop) (total : Nat) : Prop where
  forward : ∀ {cursor : Option Nat} {p : Page α} {next : Nat}, answers cursor p →
    p.cursor = some next → cursor.getD 0 < next ∧ next < total
  ends : ∀ cursor, ∃ pages, Walk answers cursor pages ∧
    pages.length ≤ total - cursor.getD 0 + 1 ∧ ∀ seen, Trail answers cursor seen → seen <+: pages

/-- The cursor of a page is behind it, and stands there if results are left. -/
theorem cursor_ofRest {next : Nat} :
    (ofRest offset limit rest).cursor = some next ↔
      limit < rest.length ∧ next = offset + limit := by
  rw [ofRest, Option.ite_none_right_eq_some, Option.some.injEq, List.length_take]
  omega

/-- A page with a positive limit leads forward within the results. -/
theorem forward_ofRest {total next : Nat} (hlimit : 0 < limit)
    (hrest : rest.length ≤ total - offset)
    (h : (ofRest offset limit rest).cursor = some next) : offset < next ∧ next < total := by
  obtain ⟨hmore, rfl⟩ := cursor_ofRest.mp h
  omega

/-- One page at each cursor, and each cursor beyond the one before: following them ends. -/
theorem Advances.of_forward {total : Nat} (hsome : ∀ cursor, ∃ p, answers cursor p)
    (hone : ∀ {cursor p q}, answers cursor p → answers cursor q → p = q)
    (hforward : ∀ {cursor p next}, answers cursor p → p.cursor = some next →
      cursor.getD 0 < next ∧ next < total) : Advances answers total where
  forward := hforward
  ends cursor := by
    -- on the number of offsets from the cursor on
    induction hleft : total - cursor.getD 0 using Nat.strongRecOn generalizing cursor with
    | ind left ih =>
        obtain ⟨p, hp⟩ := hsome cursor
        cases hnext : p.cursor with
        | none =>
            refine ⟨[p], .last hp hnext, by simp, fun seen hseen => ?_⟩
            cases hseen with
            | one hq =>
                obtain rfl := hone hq hp
                exact List.prefix_rfl
            | next hq hqnext =>
                rw [hone hq hp, hnext] at hqnext
                cases hqnext
        | some offset =>
            obtain ⟨hbeyond, hwithin⟩ := hforward hp hnext
            have hfewer : total - offset < left := by omega
            obtain ⟨pages, hwalk, hlength, hbegins⟩ := ih _ hfewer (some offset) rfl
            refine ⟨p :: pages, .next hp hnext hwalk, ?_, fun seen hseen => ?_⟩
            · rw [List.length_cons]
              omega
            · cases hseen with
              | one hq =>
                  obtain rfl := hone hq hp
                  exact List.cons_prefix_cons.mpr ⟨rfl, List.nil_prefix⟩
              | next hq hqnext hrest =>
                  obtain rfl := hone hq hp
                  cases hnext.symm.trans hqnext
                  exact List.cons_prefix_cons.mpr ⟨rfl, hbegins _ hrest⟩

/-- With a positive limit the pages of a list lead on. -/
theorem advances_slice (hlimit : 0 < limit)
    (hanswers : ∀ cursor p, answers cursor p ↔ p = slice all limit (cursor.getD 0)) :
    Advances answers all.length := by
  refine .of_forward (fun cursor => ⟨_, (hanswers cursor _).mpr rfl⟩) ?_ ?_
  · intro cursor p q hp hq
    rw [(hanswers cursor p).mp hp, (hanswers cursor q).mp hq]
  · intro cursor p next hp hnext
    rw [(hanswers cursor p).mp hp] at hnext
    exact forward_ofRest hlimit (Nat.le_of_eq List.length_drop) hnext

/-- With a positive limit every cursor is beyond the one before, so following them ends. -/
theorem exists_walk (hlimit : 0 < limit)
    (hanswers : ∀ cursor, answers cursor (slice all limit (cursor.getD 0)))
    (cursor : Option Nat) : ∃ pages, Walk answers cursor pages := by
  have hslices : Advances (fun cursor p => p = slice all limit (cursor.getD 0)) all.length :=
    advances_slice hlimit fun _ _ => Iff.rfl
  obtain ⟨pages, hwalk, -, -⟩ := hslices.ends cursor
  refine ⟨pages, hwalk.mono fun cursor p hp => ?_⟩
  rw [hp]
  exact hanswers cursor

end Chronicle.Page
