import Chronicle.Json.Basic

set_option autoImplicit false

/-!
# Pages

A page of a list of results, and where the next page starts.
-/

namespace Chronicle

/-- Some results, and the offset of the next page if results are left. -/
structure Page (α : Type) where
  items : List α
  cursor : Option Nat

namespace Page

variable {α : Type}

/-- The number of results on the page. -/
def count (p : Page α) : Nat := p.items.length

/--
The page of at most `limit` results at an offset, where `rest` are the results from there on, or
at least one more of them than the page may hold.
-/
def ofRest (offset limit : Nat) (rest : List α) : Page α :=
  let items := rest.take limit
  { items, cursor := if limit < rest.length then some (offset + items.length) else none }

/-- The record of a page; the cursor is `null` on the last page. -/
def toJson (encode : α → Json) (p : Page α) : Json :=
  let cursor :=
    match p.cursor with
    | some offset => .ofNat offset
    | none => .null
  .object [("items", .array (p.items.map encode)), ("count", .ofNat p.count), ("cursor", cursor)]

end Page

end Chronicle
