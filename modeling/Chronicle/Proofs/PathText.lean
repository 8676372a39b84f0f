import Chronicle.Path
import Mathlib.Data.List.TFAE
import Mathlib.Tactic.TFAE

set_option autoImplicit false

/-!
# Paths and their texts

A text is cut at its dots. Of each piece the marks at its end are taken off, and what is left is a
name, if anything is: it holds no dot and ends in no mark (`Segment.IsName`). Written out again, a
name is preceded by a dot unless it comes first, and the marks follow it, so that each name stands
in a piece of its own (`FieldPath.read_append_spellRest`). Main statement: the paths that texts and
joins lead to are those with such names, they are read again from their texts, a dot between two
texts joins their paths, and a joined path is resolved by its parts in turn
(`FieldPath.segments_of_text`).
-/

namespace Chronicle

namespace Segment

variable {separator : Char} {piece cs : List Char} {name : String}

/-- What a key can be called in the text of a path. -/
structure IsName (name : List Char) : Prop where
  ne_nil : name ≠ []
  /-- A dot would cut it in two. -/
  dot_not_mem : '.' ∉ name
  /-- A mark at its end would be taken off. -/
  not_marked : ¬['[', ']'] <:+ name

/-! ## Pieces -/

theorem pieces_ne_nil (separator : Char) (cs : List Char) : pieces separator cs ≠ [] := by
  cases cs with
  | nil => exact List.cons_ne_nil _ _
  | cons c cs =>
      rw [pieces]
      split
      · exact List.cons_ne_nil _ _
      · split
        · exact List.cons_ne_nil _ _
        · exact List.cons_ne_nil _ _

/-- The pieces on either side of a separator are those of what stands there. -/
theorem pieces_append_cons (separator : Char) (cs ds : List Char) :
    pieces separator (cs ++ separator :: ds) = pieces separator cs ++ pieces separator ds := by
  induction cs with
  | nil => exact if_pos rfl
  | cons c cs ih =>
      rw [List.cons_append, pieces, pieces, ih]
      by_cases hc : c = separator
      · rw [if_pos hc, if_pos hc]
        rfl
      · rw [if_neg hc, if_neg hc]
        cases hpieces : pieces separator cs with
        | nil => exact absurd hpieces (pieces_ne_nil separator cs)
        | cons piece more => rfl

theorem pieces_of_not_mem (h : separator ∉ cs) : pieces separator cs = [cs] := by
  induction cs with
  | nil => rfl
  | cons c cs ih =>
      rw [List.mem_cons, not_or] at h
      rw [pieces, if_neg (Ne.symm h.1), ih h.2]

/-- No separator is left in a piece. -/
theorem not_mem_of_mem_pieces (h : piece ∈ pieces separator cs) : separator ∉ piece := by
  induction cs generalizing piece with
  | nil =>
      obtain rfl := List.mem_singleton.mp h
      exact List.not_mem_nil
  | cons c cs ih =>
      rw [pieces] at h
      by_cases hc : c = separator
      · rw [if_pos hc] at h
        rcases List.mem_cons.mp h with rfl | hmore
        · exact List.not_mem_nil
        · exact ih hmore
      · rw [if_neg hc] at h
        cases hpieces : pieces separator cs with
        | nil => exact absurd hpieces (pieces_ne_nil separator cs)
        | cons first more =>
            -- the character goes to the front of the first piece
            rw [hpieces] at h ih
            rcases List.mem_cons.mp h with rfl | hmore
            · rw [List.mem_cons, not_or]
              exact ⟨Ne.symm hc, ih List.mem_cons_self⟩
            · exact ih (List.mem_cons_of_mem _ hmore)

/-! ## Marks -/

theorem stripMarks_of_unmarked (h : ∀ rest, cs ≠ ']' :: '[' :: rest) :
    stripMarks cs = (cs, 0) := by
  unfold stripMarks
  split
  · next rest => exact absurd rfl (h rest)
  · rfl

theorem stripMarks_of_not_suffix (h : ¬['[', ']'] <:+ cs) :
    stripMarks cs.reverse = (cs.reverse, 0) := by
  apply stripMarks_of_unmarked
  intro rest hrest
  apply h
  refine ⟨rest.reverse, ?_⟩
  have hcs := congrArg List.reverse hrest
  simpa using hcs.symm

theorem stripMarks_suffix (cs : List Char) : (stripMarks cs).1 <:+ cs := by
  induction cs using stripMarks.induct with
  | case1 rest ih => exact (ih.trans (List.suffix_cons _ _)).trans (List.suffix_cons _ _)
  | case2 cs hcs =>
      have hkeep : stripMarks cs = (cs, 0) := stripMarks_of_unmarked hcs
      simp [hkeep]

/-- All marks are taken off. -/
theorem not_prefix_stripMarks (cs : List Char) : ¬[']', '['] <+: (stripMarks cs).1 := by
  induction cs using stripMarks.induct with
  | case1 rest ih => exact ih
  | case2 cs hcs =>
      have hkeep : stripMarks cs = (cs, 0) := stripMarks_of_unmarked hcs
      rw [hkeep]
      rintro ⟨rest, hrest⟩
      exact hcs rest hrest.symm

/-! ## The segments of a piece -/

theorem ofPiece_eq (piece : List Char) :
    ofPiece piece =
      (if (stripMarks piece.reverse).1.isEmpty then []
        else [key (String.ofList (stripMarks piece.reverse).1.reverse)]) ++
        List.replicate (stripMarks piece.reverse).2 each := rfl

theorem ofPiece_of_isName (h : IsName piece) : ofPiece piece = [key (String.ofList piece)] := by
  rw [ofPiece_eq, stripMarks_of_not_suffix h.not_marked]
  simp [h.ne_nil]

/-- One more mark behind a piece is one more mark behind its segments. -/
theorem ofPiece_append_mark (piece : List Char) :
    ofPiece (piece ++ ['[', ']']) = ofPiece piece ++ [each] := by
  have hreverse : (piece ++ ['[', ']']).reverse = ']' :: '[' :: piece.reverse := by simp
  rw [ofPiece_eq, ofPiece_eq, hreverse, stripMarks, List.replicate_succ', List.append_assoc]

/-- The key of a piece is a name. -/
theorem isName_of_mem_ofPiece (hdot : '.' ∉ piece) (h : key name ∈ ofPiece piece) :
    IsName name.toList := by
  rw [ofPiece_eq, List.mem_append] at h
  rcases h with hkey | hmark
  · have hne : (stripMarks piece.reverse).1 ≠ [] := by
      intro hnil
      simp [hnil] at hkey
    rw [if_neg (by simpa using hne), List.mem_singleton, key.injEq] at hkey
    rw [hkey, String.toList_ofList]
    have hsuffix := stripMarks_suffix piece.reverse
    refine { ne_nil := by simpa using hne, dot_not_mem := ?_, not_marked := ?_ }
    · intro hmem
      have hin := hsuffix.subset (List.mem_reverse.mp hmem)
      exact hdot (List.mem_reverse.mp hin)
    · intro hmarked
      apply not_prefix_stripMarks piece.reverse
      simpa using List.reverse_prefix.mpr hmarked
  · cases List.eq_of_mem_replicate hmark

end Segment

namespace FieldPath

open Segment (IsName pieces ofPiece)

variable {p q : FieldPath} {piece : List Char} {name : String}

/-! ## What is read from a text -/

/-- The path of two texts with a dot between them is that of the first and then of the second. -/
theorem parse_dotted (a b : String) : parse (a ++ "." ++ b) = parse a ++ parse b := by
  have htext : (a ++ "." ++ b).toList = a.toList ++ '.' :: b.toList := by
    rw [String.toList_append, String.toList_append, List.append_assoc]
    rfl
  rw [parse, htext, Segment.pieces_append_cons, List.flatMap_append]
  rfl

theorem parse_of_isName (h : IsName name.toList) : parse name = [.key name] := by
  rw [parse, Segment.pieces_of_not_mem h.dot_not_mem, List.flatMap_singleton,
    Segment.ofPiece_of_isName h, String.ofList_toList]

/-- The keys of a path that is read from a text are names. -/
theorem isName_of_mem_parse {text : String} (h : .key name ∈ parse text) :
    IsName name.toList := by
  obtain ⟨piece, hpiece, hkey⟩ := List.mem_flatMap.mp h
  exact Segment.isName_of_mem_ofPiece (Segment.not_mem_of_mem_pieces hpiece) hkey

/-! ## Reading a text again -/

/-- A path is read again from behind a piece. The marks at its head go to that piece, and the next
key starts a piece of its own. -/
theorem read_append_spellRest (hdot : '.' ∉ piece)
    (hnames : ∀ name, .key name ∈ p → IsName name.toList) :
    (pieces '.' (piece ++ spellRest p)).flatMap ofPiece = ofPiece piece ++ p := by
  induction p generalizing piece with
  | nil =>
      rw [spellRest, List.append_nil, List.append_nil, Segment.pieces_of_not_mem hdot,
        List.flatMap_singleton]
  | cons s rest ih =>
      have hrest : ∀ name, .key name ∈ rest → IsName name.toList :=
        fun name hname => hnames name (List.mem_cons_of_mem _ hname)
      cases s with
      | key name =>
          have hname : IsName name.toList := hnames name List.mem_cons_self
          have hpiece : ofPiece name.toList = [.key name] := by
            rw [Segment.ofPiece_of_isName hname, String.ofList_toList]
          have hspell : piece ++ spellRest (.key name :: rest) =
              piece ++ '.' :: (name.toList ++ spellRest rest) := rfl
          rw [hspell, Segment.pieces_append_cons, List.flatMap_append,
            Segment.pieces_of_not_mem hdot, List.flatMap_singleton, ih hname.dot_not_mem hrest,
            hpiece]
          rfl
      | each =>
          have hmarked : '.' ∉ piece ++ ['[', ']'] := by simp [hdot]
          have hspell : piece ++ spellRest (.each :: rest) =
              (piece ++ ['[', ']']) ++ spellRest rest := by simp [spellRest]
          rw [hspell, ih hmarked hrest, Segment.ofPiece_append_mark, List.append_assoc]
          rfl

/-- A path whose keys are names is read again from its text. -/
theorem parse_text (hnames : ∀ name, .key name ∈ p → IsName name.toList) : parse p.text = p := by
  rw [parse, text, String.toList_ofList]
  -- the text of a path that starts with a mark, or of the empty one, stands behind an empty piece
  have hempty := read_append_spellRest List.not_mem_nil hnames
  cases p with
  | nil => exact hempty
  | cons s rest =>
      cases s with
      | each => exact hempty
      | key name =>
          have hname : IsName name.toList := hnames name List.mem_cons_self
          have hrest : ∀ name, .key name ∈ rest → IsName name.toList :=
            fun name hname => hnames name (List.mem_cons_of_mem _ hname)
          rw [spell, read_append_spellRest hname.dot_not_mem hrest,
            Segment.ofPiece_of_isName hname, String.ofList_toList]
          rfl

/-! ## Paths that are read and joined -/

/-- A path that was read from a text, or joined from such paths. -/
inductive Composed : FieldPath → Prop
  | parse (text : String) : Composed (FieldPath.parse text)
  | join {p q : FieldPath} (hp : Composed p) (hq : Composed q) : Composed (p ++ q)

theorem Composed.isName (h : Composed p) (hname : .key name ∈ p) : IsName name.toList := by
  induction h with
  | parse text => exact isName_of_mem_parse hname
  | join hp hq ihp ihq =>
      rcases List.mem_append.mp hname with hname | hname
      · exact ihp hname
      · exact ihq hname

/--
Paths and their texts correspond. The keys that are read from a text are names, that is not empty,
without a dot and without a mark at the end. A path is composed of paths that were read exactly if
its keys are names, and exactly if it is read again from its own text. A text with a dot in it is
read as the joined paths of what stands before the dot and behind it, and a joined path leads from a
value to where its second part leads from what the first one finds.
-/
theorem segments_of_text :
    (∀ (text name : String), .key name ∈ parse text → IsName name.toList) ∧
      (∀ p : FieldPath, List.TFAE [Composed p, parse p.text = p,
        ∀ name : String, .key name ∈ p → IsName name.toList]) ∧
      (∀ a b : String, parse (a ++ "." ++ b) = parse a ++ parse b) ∧
      ∀ (p q : FieldPath) (v : Json), (p ++ q).resolve v = (p.resolve v).bind q.resolve := by
  refine ⟨fun _ _ => isName_of_mem_parse, ?_, parse_dotted, resolve_append⟩
  intro p
  tfae_have 1 → 3 := fun hcomposed _ hname => hcomposed.isName hname
  tfae_have 3 → 2 := parse_text
  tfae_have 2 → 1 := by
    intro hread
    rw [← hread]
    exact .parse p.text
  tfae_finish

/-- A path with brackets in its names and marks on both sides of the join, from texts with empty
pieces, is read again from its text. -/
theorem segments_of_text_brackets :
    IsName "a[]b".toList ∧
      parse (parse ".a[]b..[[]" ++ parse "[][].]").text = parse ".a[]b..[[]" ++ parse "[][].]" ∧
      (parse ".a[]b..[[]" ++ parse "[][].]").text = "a[]b.[[][][].]" := by
  obtain ⟨hnames, hcomposed, -, -⟩ := segments_of_text
  have hjoined : Composed (parse ".a[]b..[[]" ++ parse "[][].]") := .join (.parse _) (.parse _)
  refine ⟨hnames ".a[]b..[[]" "a[]b" (by decide), ?_, by decide⟩
  exact ((hcomposed _).out 0 1).mp hjoined

end FieldPath

end Chronicle
