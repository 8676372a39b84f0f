import Chronicle.Pattern
import Chronicle.Text.Occurrence
import Mathlib.Data.List.Infix

set_option autoImplicit false

/-!
# Patterns of literal texts

A text that is escaped is a pattern for itself. The matcher marks the characters of such a
pattern; which of them are marked is told by what was read so far, and that is what each
character of the text preserves (`Progress.advance_marked`). Main statements: the pattern of the
texts that contain a text, and that of the texts that start with it, match exactly those
(`Pattern.isMatch_substring`, `Pattern.isMatch_startsWith`), unless the text is so long that the
pattern is refused (`Pattern.literal_iff`).
-/

namespace Chronicle

namespace Text

theorem startsWith_iff {part cs : List Char} : startsWith part cs = true ↔ part <+: cs :=
  List.isPrefixOf_iff_prefix

theorem contains_iff {part cs : List Char} : contains part cs = true ↔ part <:+: cs := by
  induction cs with
  | nil => simp [contains]
  | cons c cs ih => rw [contains, Bool.or_eq_true, startsWith_iff, ih, List.infix_cons_iff]

end Text

theorem CharSet.contains_only (c d : Char) : (CharSet.only c).contains d = (c == d) := by
  rw [CharSet.only, CharSet.contains, Bool.eq_iff_iff]
  simp only [Bool.and_eq_true, decide_eq_true_eq, beq_iff_eq]
  exact ⟨fun h => Char.le_antisymm h.1 h.2, fun h => h ▸ ⟨Char.le_refl _, Char.le_refl _⟩⟩

namespace Regex

/-- The expression of each character of a text. -/
def letters (cs : List Char) : List Regex := cs.map fun c => .char (.only c)

/-! ## What is marked -/

/--
The characters of a text, after the ones in `before`; a character is marked if what ends in it is
reached.
-/
def Progress.marked (reached : List Char → Bool) (before : List Char) : List Char → Progress
  | [] => .empty
  | [c] => .char (.only c) (reached (before ++ [c]))
  | c :: d :: rest =>
      .append (.char (.only c) (reached (before ++ [c])))
        (marked reached (before ++ [c]) (d :: rest))

namespace Progress

variable {reached reached' : List Char → Bool}

theorem start_letters (h : ∀ part c, reached (part ++ [c]) = false) (before cs : List Char) :
    (concat (letters cs)).start = marked reached before cs := by
  induction cs generalizing before with
  | nil => rfl
  | cons c cs ih =>
      cases cs with
      | nil => simp [letters, concat, start, marked, h]
      | cons d rest =>
          have hrest := ih (before ++ [c])
          simp only [letters, List.map_cons] at hrest
          simp [letters, concat, start, marked, h, hrest]

/-- A match ends behind a text if the whole of it is reached; that of no text ends at once. -/
theorem status_marked (place : Place) (before cs : List Char) :
    (marked reached before cs).status place =
      ⟨!cs.isEmpty && reached (before ++ cs), cs.isEmpty⟩ := by
  induction cs generalizing before with
  | nil => rfl
  | cons c cs ih =>
      cases cs with
      | nil => simp [marked, status]
      | cons d rest =>
          rw [marked, status, ih]
          simp [status, Status.andThen]

/-- One more character reaches what ends in it and had been reached up to it. -/
theorem advance_marked {c : Char}
    (h : ∀ part d, reached' (part ++ [d]) = (reached part && d == c))
    (place : Place) (before cs : List Char) :
    (marked reached before cs).advance place c (reached before) = marked reached' before cs := by
  induction cs generalizing before with
  | nil => rfl
  | cons d cs ih =>
      cases cs with
      | nil => rw [marked, advance, CharSet.contains_only, marked, h]
      | cons e rest =>
          have hleaves : (status place (.char (.only d) (reached (before ++ [d])))).leaves
              (reached before) = reached (before ++ [d]) := by
            simp [status, Status.leaves]
          rw [marked, advance, advance, hleaves, ih, CharSet.contains_only, marked, h]

end Progress

/-! ## Texts that contain a text -/

/-- After the characters in `seen`, the parts at the end of them are reached. -/
theorem matchesIn_marked_suffix (before : Option Char) (seen cs rest : List Char) :
    (Progress.marked (fun part => part.isSuffixOf seen) [] cs).matchesIn before rest = true ↔
      ∃ first, first <+: rest ∧ cs <:+ seen ++ first := by
  have hleaves : ∀ seen place, ((Progress.marked (fun part => part.isSuffixOf seen) [] cs).status
      place).leaves true = cs.isSuffixOf seen := by
    intro seen place
    rw [Progress.status_marked, Status.leaves]
    cases cs <;> simp
  induction rest generalizing before seen with
  | nil => simp [Progress.matchesIn, hleaves]
  | cons c rest ih =>
      have hstep : ∀ part d, (part ++ [d]).isSuffixOf (seen ++ [c]) =
          (part.isSuffixOf seen && d == c) := by
        intro part d
        rw [Bool.eq_iff_iff]
        simp [List.suffix_concat_iff, and_comm]
      have hadvance := @Progress.advance_marked (fun part => part.isSuffixOf seen)
        (fun part => part.isSuffixOf (seen ++ [c])) c hstep ⟨before, some c⟩ [] cs
      rw [List.isSuffixOf_iff_suffix.mpr List.nil_suffix] at hadvance
      rw [Progress.matchesIn, Bool.or_eq_true, hleaves, hadvance, List.isSuffixOf_iff_suffix]
      refine (or_congr_right (ih (some c) (seen ++ [c]))).trans ?_
      simp only [List.prefix_cons_iff]
      constructor
      · rintro (h | ⟨first, hfirst, h⟩)
        · exact ⟨[], Or.inl rfl, by rwa [List.append_nil]⟩
        · exact ⟨c :: first, Or.inr ⟨first, rfl, hfirst⟩, by simpa using h⟩
      · rintro ⟨first, rfl | ⟨first, rfl, hfirst⟩, h⟩
        · exact Or.inl (by rwa [List.append_nil] at h)
        · exact Or.inr ⟨first, hfirst, by simpa using h⟩

/-- The characters of a text, one after the other, match the texts that contain it. -/
theorem isMatch_letters (cs text : List Char) :
    (concat (letters cs)).isMatch text = Text.contains cs text := by
  have hnone : ∀ (part : List Char) (c : Char), (part ++ [c]).isSuffixOf [] = false := by
    intro part c
    rw [← Bool.not_eq_true, List.isSuffixOf_iff_suffix]
    simp
  have hstart := @Progress.start_letters (fun part => part.isSuffixOf []) hnone [] cs
  rw [Bool.eq_iff_iff, isMatch, hstart, matchesIn_marked_suffix, Text.contains_iff,
    List.infix_iff_suffix_prefix]
  simp only [List.nil_append, and_comm]

/-! ## Texts that start with a text -/

/-- After the characters in `seen`, only all of them are reached. -/
theorem matchesIn_marked_prefix (before : Option Char) (seen cs rest : List Char)
    (h : before.isNone = seen.isEmpty) :
    (Progress.append (.anchor .textStart) (.marked (fun part => part == seen) [] cs)).matchesIn
      before rest = true ↔ ∃ first, first <+: rest ∧ cs = seen ++ first := by
  have hleaves : ∀ before after seen, before.isNone = seen.isEmpty →
      ((Progress.append (.anchor .textStart) (.marked (fun part => part == seen) [] cs)).status
        ⟨before, after⟩).leaves true = (cs == seen) := by
    intro before after seen h
    rw [Progress.status, Progress.status_marked, Progress.status, Anchor.holds, h]
    cases cs <;> cases seen <;> simp [Status.leaves, Status.andThen]
  induction rest generalizing before seen with
  | nil => simp [Progress.matchesIn, hleaves _ _ _ h]
  | cons c rest ih =>
      have hstep : ∀ part d, (part ++ [d] == seen ++ [c]) = (part == seen && d == c) := by
        intro part d
        rw [Bool.eq_iff_iff]
        simp
      have hadvance := @Progress.advance_marked (fun part => part == seen)
        (fun part => part == seen ++ [c]) c hstep ⟨before, some c⟩ [] cs
      -- the beginning of the text is reached before its first character only
      have hbegin : ((Progress.anchor .textStart).status ⟨before, some c⟩).leaves true =
          ([] == seen) := by
        rw [Progress.status, Anchor.holds, h]
        cases seen <;> rfl
      rw [Progress.matchesIn, Bool.or_eq_true, hleaves _ _ _ h, Progress.advance,
        Progress.advance, hbegin, hadvance, beq_iff_eq]
      refine (or_congr_right (ih (some c) (seen ++ [c]) (by simp))).trans ?_
      simp only [List.prefix_cons_iff]
      constructor
      · rintro (h | ⟨first, hfirst, h⟩)
        · exact ⟨[], Or.inl rfl, by rwa [List.append_nil]⟩
        · exact ⟨c :: first, Or.inr ⟨first, rfl, hfirst⟩, by simpa using h⟩
      · rintro ⟨first, rfl | ⟨first, rfl, hfirst⟩, h⟩
        · exact Or.inl (by rwa [List.append_nil] at h)
        · exact Or.inr ⟨first, hfirst, by simpa using h⟩

/-- The beginning of the text and then the characters of one match the texts that start with it. -/
theorem isMatch_textStart_letters (cs text : List Char) :
    (concat (.anchor .textStart :: letters cs)).isMatch text = Text.startsWith cs text := by
  cases cs with
  | nil => cases text <;> rfl
  | cons c cs =>
      have hstart : (concat (.anchor .textStart :: letters (c :: cs))).start =
          .append (.anchor .textStart) (.marked (fun part => part == []) [] (c :: cs)) := by
        have hnone : ∀ (part : List Char) (c : Char), (part ++ [c] == []) = false := by simp
        rw [← @Progress.start_letters (fun part => part == []) hnone]
        rfl
      rw [Bool.eq_iff_iff, isMatch, hstart, matchesIn_marked_prefix _ _ _ _ rfl,
        Text.startsWith_iff]
      simp

/-! ## Reading an escaped text -/

theorem readEscape_of_isMeta {c : Char} (h : isMeta c = true) (rest : List Char) :
    readEscape (c :: rest) = some (.literal c, rest) := by
  have hall : ∀ d ∈ "\\.+*?()|[]\x7b\x7d^$#&-~".toList,
      readEscape (d :: rest) = some (.literal d, rest) := by
    intro d hd
    simp at hd
    rcases hd with rfl | rfl | rfl | rfl | rfl | rfl | rfl | rfl | rfl | rfl | rfl | rfl | rfl |
      rfl | rfl | rfl | rfl | rfl <;> rfl
  exact hall c (List.contains_iff_mem.mp h)

theorem ofChar_of_not_isMeta {c : Char} (h : isMeta c = false) : ofChar {} c = .char (.only c) := by
  unfold ofChar
  split
  · cases h
  · cases h
  · cases h
  · rfl

/-- An escaped text is read as its characters; each of them takes one step. -/
theorem readSequence_escape {fuel : Nat} {cs : List Char} (h : cs.length < fuel)
    (sofar : List (Option Part)) (names : List String) :
    readSequence fuel {} sofar ⟨escape cs, names⟩ =
      some (.sequence (sofar.reverse ++ (letters cs).map fun r => some (.plain r)), {},
        ⟨[], names⟩) := by
  induction cs generalizing fuel sofar with
  | nil =>
      cases fuel with
      | zero => cases h
      | succ fuel => simp [readSequence, escape, letters]
  | cons c cs ih =>
      cases fuel with
      | zero => cases h
      | succ fuel =>
          have hfuel : cs.length < fuel := by simpa using h
          have hrest : readSequence fuel {} (some (.plain (.char (.only c))) :: sofar)
              ⟨escape cs, names⟩ = some (.sequence (sofar.reverse ++
                (letters (c :: cs)).map fun r => some (.plain r)), {}, ⟨[], names⟩) := by
            rw [ih hfuel]
            simp [letters]
          cases hmeta : isMeta c with
          | true =>
              have hescape : escape (c :: cs) = '\\' :: c :: escape cs := by
                simp [escape, hmeta]
              rw [hescape, readSequence]
              simp only [readEscape_of_isMeta hmeta]
              exact hrest
          | false =>
              have hescape : escape (c :: cs) = c :: escape cs := by simp [escape, hmeta]
              rw [hescape, readSequence]
              dsimp only
              -- only the last row is about characters without a meaning of their own
              split
              case h_10 =>
                rw [ofChar_of_not_isMeta hmeta]
                exact hrest
              all_goals cases hmeta

theorem joinedDepth_le_one {depths : List Nat} (h : ∀ d ∈ depths, d = 0) :
    Part.joinedDepth depths ≤ 1 := by
  have hmax : depths.foldr max 0 = 0 := by
    induction depths with
    | nil => rfl
    | cons d ds ih =>
        rw [List.foldr_cons, h d List.mem_cons_self,
          ih fun e he => h e (List.mem_cons_of_mem _ he)]
        rfl
  rw [Part.joinedDepth, hmax]
  split <;> decide

/-- A source that is read as parts without nesting is the pattern of these parts. -/
theorem parse?_of_readSequence {source : List Char} {rs : List Regex}
    (h : readSequence (4 * source.length + 3) {} [] ⟨source, []⟩ =
      some (.sequence (rs.map fun r => some (.plain r)), {}, ⟨[], []⟩)) :
    parse? false source = some (concat rs) := by
  have hexpr : (Part.sequence (rs.map fun r => some (.plain r))).expr = concat rs := by
    simp [Part.sequence, Part.plain, List.filterMap_map, Function.comp_def]
  have hdepth : (Part.sequence (rs.map fun r => some (.plain r))).depth ≤ 1 := by
    refine joinedDepth_le_one fun d hd => ?_
    obtain ⟨item, hitem, rfl⟩ := List.mem_map.mp hd
    obtain ⟨r, -, rfl⟩ := List.mem_map.mp hitem
    rfl
  have hone : ∀ p : Part, (Part.alternatives [p]).expr = p.expr ∧
      (Part.alternatives [p]).depth = max p.depth 0 := fun p => ⟨rfl, rfl⟩
  obtain ⟨hexpr', hdepth'⟩ := hone (.sequence (rs.map fun r => some (.plain r)))
  have hread : readAlternatives (4 * source.length + 4) { ignoreCase := false } ⟨source, []⟩ =
      some ([.sequence (rs.map fun r => some (.plain r))], ⟨[], []⟩) := by
    rw [readAlternatives, h]
  rw [parse?, hread]
  simp only [List.isEmpty_nil, true_and]
  rw [if_pos, hexpr', hexpr]
  rw [hdepth', maxDepth]
  omega

theorem length_le_length_escape (cs : List Char) : cs.length ≤ (escape cs).length := by
  induction cs with
  | nil => exact Nat.le_refl _
  | cons c cs ih =>
      have hcons : (escape (c :: cs)).length =
          (if isMeta c then ['\\', c] else [c]).length + (escape cs).length := by
        rw [escape, List.flatMap_cons, List.length_append, escape]
      have hone : 1 ≤ (if isMeta c then ['\\', c] else [c]).length := by
        split <;> simp
      rw [hcons, List.length_cons]
      omega

theorem parse?_escape (cs : List Char) : parse? false (escape cs) = some (concat (letters cs)) := by
  have hlength := length_le_length_escape cs
  exact parse?_of_readSequence (readSequence_escape (by omega) [] [])

theorem parse?_caret_escape (cs : List Char) :
    parse? false ('^' :: escape cs) = some (concat (.anchor .textStart :: letters cs)) := by
  have hlength := length_le_length_escape cs
  refine parse?_of_readSequence ?_
  rw [readSequence]
  exact readSequence_escape (by rw [List.length_cons]; omega)
    [some (.plain (.anchor .textStart))] []

/-! ## How much room a literal takes -/

theorem plans_char_only (c : Char) : (Regex.char (.only c)).plans = [.literal [c]] := by
  simp [plans, CharSet.only, CharSet.ranges, Plan.ofRanges, Char.ofNat_toNat]

/-- The characters of a text are laid out as one literal. -/
theorem plans_letters (c : Char) (cs : List Char) :
    (concat (letters (c :: cs))).plans = [.literal (c :: cs)] := by
  induction cs generalizing c with
  | nil => exact plans_char_only c
  | cons d cs ih =>
      have happend : (concat (letters (c :: d :: cs))).plans =
          [.inSequence [.oneOf (Regex.char (.only c)).plans,
            .oneOf (concat (letters (d :: cs))).plans]] := rfl
      rw [happend, plans_char_only, ih]
      rfl

theorem plan_textStart_letters (c : Char) (cs : List Char) :
    (concat (.anchor .textStart :: letters (c :: cs))).plan =
      .sequence [.anchor .textStart, .literal (c :: cs)] := by
  have happend : (concat (.anchor .textStart :: letters (c :: cs))).plan =
      .oneOf [.inSequence [.anchor .textStart, .oneOf (concat (letters (c :: cs))).plans]] := rfl
  rw [happend, plans_letters]
  rfl

/-- A literal is small unless it has more bytes than there is room for. -/
theorem isSmall_letters_iff (cs : List Char) :
    (concat (letters cs)).isSmall = true ↔ Footprint.bytes cs ≤ 327673 := by
  cases cs with
  | nil => decide
  | cons c cs =>
      have hplan : (concat (letters (c :: cs))).plan = .literal (c :: cs) := by
        rw [plan, plans_letters]
        rfl
      have hforward : (Plan.literal (c :: cs)).automaton .forward =
          112 + 64 + 32 * Footprint.bytes (c :: cs) + 32 := rfl
      have hbackward : (Plan.literal (c :: cs)).automaton .backward =
          112 + 32 * Footprint.bytes (c :: cs) + 32 := rfl
      simp only [isSmall, hplan, hforward, hbackward, Footprint.limit, Bool.and_eq_true,
        decide_eq_true_eq]
      omega

theorem isSmall_textStart_letters_iff (cs : List Char) :
    (concat (.anchor .textStart :: letters cs)).isSmall = true ↔
      Footprint.bytes cs ≤ 327674 := by
  cases cs with
  | nil => decide
  | cons c cs =>
      have hforward : (Plan.sequence [.anchor .textStart, .literal (c :: cs)]).automaton
          .forward = 32 + 64 + (0 + 32 + (0 + 32 * Footprint.bytes (c :: cs) + 0)) + 32 := rfl
      have hbackward : (Plan.sequence [.anchor .textStart, .literal (c :: cs)]).automaton
          .backward = 112 + (0 + 32 + (0 + 32 * Footprint.bytes (c :: cs) + 0)) + 32 := rfl
      simp only [isSmall, plan_textStart_letters, hforward, hbackward, Footprint.limit,
        Bool.and_eq_true, decide_eq_true_eq]
      omega

end Regex

namespace Pattern

open Regex

variable {p : Pattern} {r : Regex}

theorem isValid_of_parse? (h : parse? p.ignoreCase p.source.toList = some r) :
    p.isValid = r.isSmall := by
  rw [isValid, regex?, h, Option.isSome_filter, Option.any_some]

theorem isMatch_of_parse? (h : parse? p.ignoreCase p.source.toList = some r)
    (hvalid : p.isValid = true) (text : String) : p.isMatch text = r.isMatch text.toList := by
  have hsmall : r.isSmall = true := by rw [← isValid_of_parse? h, hvalid]
  rw [isMatch, regex?, h, Option.filter_some_pos hsmall]

theorem parse?_substring (text : String) :
    parse? (substring text).ignoreCase (substring text).source.toList =
      some (concat (letters text.toList)) := by
  rw [substring, String.toList_ofList, parse?_escape]

theorem parse?_startsWith (text : String) :
    parse? (startsWith text).ignoreCase (startsWith text).source.toList =
      some (concat (.anchor .textStart :: letters text.toList)) := by
  rw [startsWith, String.toList_ofList, parse?_caret_escape]

/-- An escaped text is a pattern unless it is too long. -/
theorem isValid_substring_iff (text : String) :
    (substring text).isValid = true ↔ Footprint.bytes text.toList ≤ 327673 := by
  rw [isValid_of_parse? (parse?_substring text), isSmall_letters_iff]

theorem isValid_startsWith_iff (text : String) :
    (startsWith text).isValid = true ↔ Footprint.bytes text.toList ≤ 327674 := by
  rw [isValid_of_parse? (parse?_startsWith text), isSmall_textStart_letters_iff]

/-- An escaped text that is a pattern matches exactly the texts that contain it. -/
theorem isMatch_substring {part : String} (h : (substring part).isValid = true) (text : String) :
    (substring part).isMatch text = Text.contains part.toList text.toList := by
  rw [isMatch_of_parse? (parse?_substring part) h, isMatch_letters]

/-- An escaped text behind a caret matches exactly the texts that start with it. -/
theorem isMatch_startsWith {part : String} (h : (startsWith part).isValid = true)
    (text : String) :
    (startsWith part).isMatch text = Text.startsWith part.toList text.toList := by
  rw [isMatch_of_parse? (parse?_startsWith part) h, isMatch_textStart_letters]

/-- A pattern that is meant to match some text does as it is meant to unless it is refused. -/
theorem isMatch_iff_isValid {p : Pattern} {test : String → Bool} {text : String}
    (htext : test text = true) (h : p.isValid = true → ∀ s, p.isMatch s = test s) :
    (∀ s, p.isMatch s = test s) ↔ p.isValid = true := by
  refine ⟨fun hmatch => ?_, h⟩
  by_contra hvalid
  rw [isValid, Option.not_isSome_iff_eq_none] at hvalid
  -- a pattern that is refused matches nothing
  have hrefused := hmatch text
  rw [htext, isMatch, hvalid] at hrefused
  cases hrefused

/-- The escaped form matches what contains the text, unless the text is too long. -/
theorem isMatch_substring_iff {part : String} :
    (∀ text, (substring part).isMatch text = Text.contains part.toList text.toList) ↔
      Footprint.bytes part.toList ≤ 327673 := by
  have hself : Text.contains part.toList part.toList = true :=
    Text.contains_iff.mpr List.infix_rfl
  rw [← isValid_substring_iff]
  exact isMatch_iff_isValid hself isMatch_substring

theorem isMatch_startsWith_iff {part : String} :
    (∀ text, (startsWith part).isMatch text = Text.startsWith part.toList text.toList) ↔
      Footprint.bytes part.toList ≤ 327674 := by
  have hself : Text.startsWith part.toList part.toList = true :=
    Text.startsWith_iff.mpr List.prefix_rfl
  rw [← isValid_startsWith_iff]
  exact isMatch_iff_isValid hself isMatch_startsWith

/--
A text whose escaped form stands for it: alone, for the texts that contain it, and behind a caret,
for those that start with it.
-/
structure Literal (part : String) : Prop where
  substring : ∀ text : String,
    (substring part).isMatch text = Text.contains part.toList text.toList
  startsWith : ∀ text : String,
    (startsWith part).isMatch text = Text.startsWith part.toList text.toList

/-- The escaped form stands for the text unless the text is too long for the matcher. -/
theorem literal_iff {part : String} :
    Literal part ↔ Footprint.bytes part.toList ≤ 327673 := by
  constructor
  · intro h
    exact isMatch_substring_iff.mp h.substring
  · intro h
    exact ⟨isMatch_substring_iff.mpr h, isMatch_startsWith_iff.mpr (Nat.le_succ_of_le h)⟩

end Pattern

end Chronicle
