import Chronicle.Json.Record
import Chronicle.Proofs.Numerals
import Chronicle.Proofs.Spelling

set_option autoImplicit false

/-!
# Values are read back from their texts

The compact text of a value is read as that value, if its numbers are integers of 64 bits: floats
are rounded as they are read. Main statements: the text of a value in front of what may follow it
is read as the value (`Json.readValue_spell`), as far as the shape covers it, and so is the whole
text (`Json.readAs?_spell`); and no key of a value goes lost if none is repeated
(`Json.settle_of_hasDistinctKeys`).
-/

namespace Chronicle

open Text

/-- Whether the number is an integer of 64 bits, signed or unsigned. -/
def Number.isWord : Number → Bool
  | int n => decide (minSigned ≤ n ∧ n < unsignedLimit)
  | float _ => false

namespace Json

mutual

/-- Whether all numbers in the value are integers of 64 bits. -/
def hasWords : Json → Bool
  | number n => n.isWord
  | array items => itemsHaveWords items
  | object fields => fieldsHaveWords fields
  | _ => true

/-- Whether all numbers in the items are integers of 64 bits. -/
def itemsHaveWords : List Json → Bool
  | [] => true
  | v :: rest => hasWords v && itemsHaveWords rest

/-- Whether all numbers in the fields are integers of 64 bits. -/
def fieldsHaveWords : List (String × Json) → Bool
  | [] => true
  | (_, v) :: rest => hasWords v && fieldsHaveWords rest

end

mutual

/-- Whether no object in the value repeats a key. -/
def hasDistinctKeys : Json → Bool
  | array items => itemsHaveDistinctKeys items
  | object fields => Fields.distinct fields && fieldsHaveDistinctKeys fields
  | _ => true

/-- Whether no object in the items repeats a key. -/
def itemsHaveDistinctKeys : List Json → Bool
  | [] => true
  | v :: rest => hasDistinctKeys v && itemsHaveDistinctKeys rest

/-- Whether no object in the fields' values repeats a key. -/
def fieldsHaveDistinctKeys : List (String × Json) → Bool
  | [] => true
  | (_, v) :: rest => hasDistinctKeys v && fieldsHaveDistinctKeys rest

end

mutual

/-- Whether everything in the value is kept by the shape. -/
def isCovered : Json → Shape → Bool
  | _, .any => true
  | _, .skipped => false
  | array _, .record _ => false
  | object fields, .record kept => fieldsAreCovered fields (.record kept)
  | _, .record _ => true

/-- Whether everything in the fields is kept by the shape of their object. -/
def fieldsAreCovered : List (String × Json) → Shape → Bool
  | [], _ => true
  | (key, v) :: rest, shape => isCovered v (shape.field key) && fieldsAreCovered rest shape

end

theorem keeps_of_isCovered {v : Json} {shape : Shape} (h : isCovered v shape = true) :
    shape.keeps = true := by
  cases shape with
  | skipped =>
      unfold isCovered at h
      cases v <;> cases h
  | _ => rfl

theorem keeps_of_field {shape : Shape} {key : String} (h : (shape.field key).keeps = true) :
    shape.keeps = true := by
  cases shape with
  | skipped => exact h
  | _ => rfl

theorem isCovered_any (v : Json) : isCovered v .any = true := by
  unfold isCovered
  cases v <;> rfl

theorem fieldsAreCovered_of_isCovered {fields : List (String × Json)} {shape : Shape}
    (h : isCovered (object fields) shape = true) : fieldsAreCovered fields shape = true := by
  cases shape with
  | any =>
      clear h
      induction fields with
      | nil => unfold fieldsAreCovered; rfl
      | cons field rest ih =>
          obtain ⟨key, v⟩ := field
          unfold fieldsAreCovered
          rw [Shape.field, isCovered_any, ih]
          rfl
  | skipped => exact absurd (keeps_of_isCovered h) Bool.false_ne_true
  | record kept => unfold isCovered at h; exact h

theorem eq_any_of_isCovered {items : List Json} {shape : Shape}
    (h : isCovered (array items) shape = true) : shape = .any := by
  cases shape with
  | any => rfl
  | _ => unfold isCovered at h; cases h

/-! ## Numbers -/

/-- What may follow a value in the text of a greater one: nothing, or what separates or closes. -/
def Ends (rest : List Char) : Prop := ∀ c, rest.head? = some c → c = ',' ∨ c = ']' ∨ c = '\x7d'

theorem ends_nil : Ends [] := fun _ h => by cases h

theorem ends_cons {c : Char} (h : c = ',' ∨ c = ']' ∨ c = '\x7d') (rest : List Char) :
    Ends (c :: rest) := by
  intro d hd
  cases hd
  exact h

theorem Ends.cases {rest : List Char} (h : Ends rest) :
    rest = [] ∨ ∃ c cs, rest = c :: cs ∧ isDigit c = false ∧ c ≠ '.' ∧ c ≠ 'e' ∧ c ≠ 'E' := by
  cases rest with
  | nil => exact Or.inl rfl
  | cons c cs =>
      refine Or.inr ⟨c, cs, rfl, ?_⟩
      rcases h c rfl with rfl | rfl | rfl <;> decide

/-- The digits of a number end where the number ends. -/
theorem takeWhile_toDigits (n : Nat) {rest : List Char} (h : Ends rest) :
    (Nat.toDigits 10 n ++ rest).takeWhile isDigit = Nat.toDigits 10 n ∧
      (Nat.toDigits 10 n ++ rest).dropWhile isDigit = rest := by
  have hdigits : ∀ c ∈ Nat.toDigits 10 n, isDigit c = true := fun c hc => isDigit_of_mem_toDigits hc
  rw [List.takeWhile_append_of_pos hdigits, List.dropWhile_append_of_pos hdigits]
  rcases h.cases with rfl | ⟨c, cs, rfl, hc, -⟩
  · exact ⟨List.append_nil _, rfl⟩
  · rw [List.takeWhile_cons_of_neg (by simp [hc]), List.dropWhile_cons_of_neg (by simp [hc])]
    exact ⟨List.append_nil _, rfl⟩

theorem readFraction_ends {rest : List Char} (h : Ends rest) :
    readFraction rest = some ([], rest) := by
  rcases h.cases with rfl | ⟨c, cs, rfl, -, hdot, -⟩
  · rfl
  · unfold readFraction
    split
    · next heq => exact absurd (List.cons.inj heq).1 hdot
    · rfl

theorem readExponent_ends {rest : List Char} (h : Ends rest) :
    readExponent rest = some (0, false, rest) := by
  rcases h.cases with rfl | ⟨c, cs, rfl, -, -, he, hE⟩
  · rfl
  · unfold readExponent
    dsimp only
    rw [if_neg (by simp [he, hE])]

theorem digits_not_refused (n : Nat) :
    ((Nat.toDigits 10 n).isEmpty ||
      ((Nat.toDigits 10 n).head? == some '0' && decide (1 < (Nat.toDigits 10 n).length))) =
        false := by
  have hnil : (Nat.toDigits 10 n).isEmpty = false := by
    rw [List.isEmpty_eq_false_iff]
    exact Nat.toDigits_ne_nil
  rw [hnil, Bool.false_or]
  rcases Nat.eq_zero_or_pos n with rfl | hpos
  · rfl
  · have hhead := head?_toDigits_ne hpos
    rw [Bool.and_eq_false_iff, beq_eq_false_iff_ne]
    exact Or.inl hhead

/-- The digits of a number are read whatever stands for its sign. -/
theorem readLiteral_of_sign {cs : List Char} {negative : Bool} {n : Nat} {rest : List Char}
    (h : Ends rest)
    (hsign : (match cs with
      | '-' :: r => (true, r)
      | r => (false, r)) = (negative, Nat.toDigits 10 n ++ rest)) :
    readLiteral cs = some (⟨negative, Nat.toDigits 10 n, [], 0, true⟩, rest) := by
  obtain ⟨htake, hdrop⟩ := takeWhile_toDigits n h
  unfold readLiteral
  split
  next negative' cs' heq =>
    obtain ⟨rfl, rfl⟩ := Prod.mk.inj (heq.symm.trans hsign)
    dsimp only
    rw [htake, hdrop, digits_not_refused, readFraction_ends h]
    simp only [Bool.false_eq_true, if_false, Option.bind_eq_bind, Option.bind_some,
      readExponent_ends h]
    rfl

/-- The text of an integer is read as its sign and its digits. -/
theorem readLiteral_spellInt (n : Int) {rest : List Char} (h : Ends rest) :
    readLiteral (Number.spellInt n ++ rest) =
      some (⟨decide (n < 0), Nat.toDigits 10 n.natAbs, [], 0, true⟩, rest) := by
  apply readLiteral_of_sign h
  unfold Number.spellInt
  by_cases hn : n < 0
  · rw [if_pos hn, decide_eq_true hn]
    rfl
  · rw [if_neg hn, decide_eq_false hn]
    split
    · next r heq =>
      -- the sign would have to be a digit
      have hminus : '-' ∈ Nat.toDigits 10 n.natAbs := by
        cases hds : Nat.toDigits 10 n.natAbs with
        | nil => exact absurd hds Nat.toDigits_ne_nil
        | cons d ds =>
            rw [hds, List.cons_append] at heq
            rw [(List.cons.inj heq).1]
            exact List.mem_cons_self
      exact absurd (isDigit_of_mem_toDigits hminus) (by decide)
    · rfl

theorem number?_of_isWord {n : Int} (h : (Number.int n).isWord = true) :
    Literal.number? ⟨decide (n < 0), Nat.toDigits 10 n.natAbs, [], 0, true⟩ =
      some (.int n) := by
  have hrange := of_decide_eq_true h
  have hsigned : Number.minSigned = -(Word.limit 63 : Nat) := rfl
  have hunsigned : Number.unsignedLimit = (Word.limit 64 : Nat) := rfl
  rw [hsigned, hunsigned] at hrange
  unfold Literal.number?
  rw [digitsValue_toDigits]
  by_cases hn : n < 0
  · have hpos : 0 < n.natAbs ∧ n.natAbs ≤ Word.limit 63 := by omega
    simp only [decide_eq_true hn, Bool.not_true, Bool.and_false, Bool.false_and, Bool.and_true,
      Bool.false_eq_true, if_false, decide_eq_true hpos.1, decide_eq_true hpos.2, if_true]
    congr 2
    omega
  · have hlimit : n.natAbs < Word.limit 64 := by omega
    simp only [decide_eq_false hn, Bool.not_false, Bool.true_and, decide_eq_true hlimit, if_true]
    congr 2
    omega

/-- An integer of 64 bits is read from its text. -/
theorem readFigure_spell {n : Number} (hn : n.isWord = true) {shape : Shape}
    (hkeeps : shape.keeps = true) {rest : List Char} (h : Ends rest) :
    readFigure shape (n.spell ++ rest) = some (number n, rest) := by
  cases n with
  | float x => cases hn
  | int n =>
      rw [readFigure, if_pos hkeeps, readNumber]
      show ((readLiteral (Number.spellInt n ++ rest)).bind _).map _ = _
      rw [readLiteral_spellInt n h, Option.bind_some]
      simp only [number?_of_isWord hn, Option.bind_eq_bind, Option.bind_some, Option.pure_def,
        Option.map_some]

/-! ## Values -/

/-- What starts with the sign or a digit of a number is read as one. -/
theorem readValue_figure {c : Char} (hc : c = '-' ∨ isDigit c = true) (fuel : Nat) (shape : Shape)
    (cs : List Char) : readValue (fuel + 1) shape (c :: cs) = readFigure shape (c :: cs) := by
  have hfirst : c ∉ [' ', '\n', '\t', '\r', 'n', 't', 'f', '"', '[', '\x7b'] := by
    intro hmem
    simp only [List.mem_cons, List.not_mem_nil, or_false] at hmem
    rcases hmem with rfl | rfl | rfl | rfl | rfl | rfl | rfl | rfl | rfl | rfl <;>
      exact absurd hc (by decide)
  simp only [List.mem_cons, List.not_mem_nil, or_false, not_or] at hfirst
  obtain ⟨hblank, hfeed, htab, hreturn, hn, ht, hf, hquote, hbracket, hbrace⟩ := hfirst
  have hspace : isSpace c = false := by simp [isSpace, hblank, hfeed, htab, hreturn]
  have hskip : skipSpaces (c :: cs) = c :: cs :=
    List.dropWhile_cons_of_neg (by rw [hspace]; exact Bool.false_ne_true)
  rw [readValue, hskip]
  split
  · next h => cases h
  · next h => exact absurd (List.cons.inj h).1 hn
  · next h => exact absurd (List.cons.inj h).1 ht
  · next h => exact absurd (List.cons.inj h).1 hf
  · next h => exact absurd (List.cons.inj h).1 hquote
  · next h => exact absurd (List.cons.inj h).1 hbracket
  · next h => exact absurd (List.cons.inj h).1 hbrace
  · rfl

/-- The text of an integer starts with its sign or its first digit. -/
theorem spell_eq_cons_of_isWord {n : Number} (h : n.isWord = true) :
    ∃ c cs, n.spell = c :: cs ∧ (c = '-' ∨ isDigit c = true) := by
  cases n with
  | float x => cases h
  | int n =>
      rw [Number.spell, Number.spellInt]
      split
      · exact ⟨'-', _, rfl, Or.inl rfl⟩
      · cases hds : Nat.toDigits 10 n.natAbs with
        | nil => exact absurd hds Nat.toDigits_ne_nil
        | cons d ds =>
            refine ⟨d, ds, rfl, Or.inr ?_⟩
            apply isDigit_of_mem_toDigits
            rw [hds]
            exact List.mem_cons_self

/-- No text of a value starts with a blank or a closing bracket. -/
theorem spell_eq_cons {v : Json} (h : v.hasWords = true) :
    ∃ c cs, v.spell = c :: cs ∧ isSpace c = false ∧ c ≠ ']' := by
  cases v with
  | null => exact ⟨'n', _, rfl, rfl, by decide⟩
  | bool b => cases b <;> exact ⟨_, _, rfl, rfl, by decide⟩
  | string text => exact ⟨'"', _, rfl, rfl, by decide⟩
  | array items => exact ⟨'[', _, by rw [spell], rfl, by decide⟩
  | object fields => exact ⟨'\x7b', _, by rw [spell], rfl, by decide⟩
  | number n =>
      have hword : n.isWord = true := by simpa [hasWords] using h
      obtain ⟨c, cs, hspell, hc⟩ := spell_eq_cons_of_isWord hword
      refine ⟨c, cs, by rw [spell, hspell], ?_, ?_⟩
      · rcases hc with rfl | hc
        · rfl
        · cases hspace : isSpace c with
          | false => rfl
          | true =>
              simp only [isSpace, Bool.or_eq_true, beq_iff_eq] at hspace
              rcases hspace with ((rfl | rfl) | rfl) | rfl <;> exact absurd hc (by decide)
      · rintro rfl
        exact absurd hc (by decide)

theorem spellItems_eq_cons {v : Json} (h : v.hasWords = true) (vs : List Json) :
    ∃ c cs, spellItems (v :: vs) = c :: cs ∧ isSpace c = false ∧ c ≠ ']' := by
  obtain ⟨c, cs, hspell, hc⟩ := spell_eq_cons h
  cases vs with
  | nil => exact ⟨c, cs, by rw [spellItems, hspell], hc⟩
  | cons w vs => exact ⟨c, _, by rw [spellItems, hspell, List.cons_append], hc⟩

theorem spellFields_eq_append (key : String) (v : Json) (fs : List (String × Json)) :
    ∃ tail, spellFields ((key, v) :: fs) = spellString key ++ tail := by
  cases fs with
  | nil => exact ⟨_, by rw [spellFields]⟩
  | cons f fs => exact ⟨_, by rw [spellFields]⟩

theorem readValue_null (fuel : Nat) (shape : Shape) (rest : List Char) :
    readValue (fuel + 1) shape (null.spell ++ rest) = some (null, rest) := by
  have hskip : skipSpaces (null.spell ++ rest) = 'n' :: 'u' :: 'l' :: 'l' :: rest := rfl
  rw [readValue, hskip]
  rfl

theorem readValue_bool (fuel : Nat) (shape : Shape) (b : Bool) (rest : List Char) :
    readValue (fuel + 1) shape ((bool b).spell ++ rest) = some (bool b, rest) := by
  cases b with
  | true =>
      have hskip : skipSpaces ((bool true).spell ++ rest) = 't' :: 'r' :: 'u' :: 'e' :: rest := rfl
      rw [readValue, hskip]
      rfl
  | false =>
      have hskip : skipSpaces ((bool false).spell ++ rest) =
          'f' :: 'a' :: 'l' :: 's' :: 'e' :: rest := rfl
      rw [readValue, hskip]
      rfl

theorem readValue_emptyArray (fuel : Nat) (shape : Shape) (rest : List Char) :
    readValue (fuel + 1) shape ((array []).spell ++ rest) = some (array [], rest) := by
  have hopen : skipSpaces ((array []).spell ++ rest) = '[' :: ']' :: rest := rfl
  have hclose : skipSpaces (']' :: rest) = ']' :: rest := rfl
  rw [readValue, hopen]
  simp only [hclose]

theorem readValue_emptyObject (fuel : Nat) (shape : Shape) (rest : List Char) :
    readValue (fuel + 1) shape ((object []).spell ++ rest) = some (object [], rest) := by
  have hopen : skipSpaces ((object []).spell ++ rest) = '\x7b' :: '\x7d' :: rest := rfl
  have hclose : skipSpaces ('\x7d' :: rest) = '\x7d' :: rest := rfl
  rw [readValue, hopen]
  simp only [hclose]

/-- What stands in brackets and does not start with the closing one is read as items. -/
theorem readValue_array (fuel : Nat) (shape : Shape) {c : Char} (hspace : isSpace c = false)
    (hc : c ≠ ']') (cs : List Char) :
    readValue (fuel + 1) shape ('[' :: c :: cs) =
      (readItems fuel shape (c :: cs)).map fun r => (array r.1, r.2) := by
  have hbracket : skipSpaces ('[' :: c :: cs) = '[' :: c :: cs := rfl
  have hskip : skipSpaces (c :: cs) = c :: cs :=
    List.dropWhile_cons_of_neg (by rw [hspace]; exact Bool.false_ne_true)
  rw [readValue, hbracket]
  simp only [hskip]
  split
  · next h => exact absurd (List.cons.inj h).1 hc
  · rfl

mutual

/-- The text of a value, in front of what may follow it, is read as the value. -/
theorem readValue_spell (v : Json) {shape : Shape} {fuel : Nat} {rest : List Char}
    (hwords : v.hasWords = true) (hcovered : v.isCovered shape = true)
    (hfuel : v.spell.length ≤ fuel) (hends : Ends rest) :
    readValue fuel shape (v.spell ++ rest) = some (v, rest) := by
  have hkeeps := keeps_of_isCovered hcovered
  have hpos : 0 < v.spell.length := by
    obtain ⟨c, cs, hspell, -⟩ := spell_eq_cons hwords
    rw [hspell]
    exact Nat.succ_pos _
  obtain ⟨fuel, rfl⟩ : ∃ n, fuel = n + 1 := ⟨fuel - 1, by omega⟩
  cases v with
  | null => exact readValue_null fuel shape rest
  | bool b => exact readValue_bool fuel shape b rest
  | string text => exact readValue_spellString fuel hkeeps text rest
  | number n =>
      have hword : n.isWord = true := by simpa [hasWords] using hwords
      have hread := readFigure_spell hword hkeeps hends
      obtain ⟨c, cs, hspell, hc⟩ := spell_eq_cons_of_isWord hword
      rw [hspell, List.cons_append] at hread
      rw [spell, hspell, List.cons_append, readValue_figure hc, hread]
  | array items =>
      cases eq_any_of_isCovered hcovered
      cases items with
      | nil => exact readValue_emptyArray fuel .any rest
      | cons v vs =>
          have hitems : itemsHaveWords (v :: vs) = true := by simpa [hasWords] using hwords
          have hfirst : v.hasWords = true := by
            rw [itemsHaveWords, Bool.and_eq_true] at hitems
            exact hitems.1
          have hlength : (spellItems (v :: vs)).length + 1 ≤ fuel := by
            simp [spell] at hfuel
            omega
          have hread := readItems_spell (v :: vs) rest (List.cons_ne_nil v vs) hitems hlength
          obtain ⟨c, cs, hspell, hspace, hc⟩ := spellItems_eq_cons hfirst vs
          rw [spell, List.cons_append, List.append_assoc, List.singleton_append, hspell,
            List.cons_append, readValue_array fuel .any hspace hc, ← List.cons_append, ← hspell,
            hread]
          rfl
  | object fields =>
      cases fields with
      | nil => exact readValue_emptyObject fuel shape rest
      | cons f fs =>
          obtain ⟨key, v⟩ := f
          have hfields : fieldsHaveWords ((key, v) :: fs) = true := by
            simpa [hasWords] using hwords
          have hlength : (spellFields ((key, v) :: fs)).length + 1 ≤ fuel := by
            simp [spell] at hfuel
            omega
          have hread := readFields_spell ((key, v) :: fs) rest (List.cons_ne_nil _ fs) hfields
            (fieldsAreCovered_of_isCovered hcovered) hlength
          obtain ⟨tail, hspell⟩ := spellFields_eq_append key v fs
          rw [spell, List.cons_append, List.append_assoc, List.singleton_append, hspell,
            List.append_assoc, readValue_object, ← List.append_assoc, ← hspell, hread]
          rfl

/-- The texts of items are read as the items. -/
theorem readItems_spell (items : List Json) {fuel : Nat} (rest : List Char) (hne : items ≠ [])
    (hwords : itemsHaveWords items = true) (hfuel : (spellItems items).length + 1 ≤ fuel) :
    readItems fuel .any (spellItems items ++ ']' :: rest) = some (items, rest) := by
  obtain ⟨fuel, rfl⟩ : ∃ n, fuel = n + 1 := ⟨fuel - 1, by omega⟩
  have hshape : Shape.items .any = (.any, .any) := rfl
  match items with
  | [] => exact absurd rfl hne
  | [v] =>
      rw [itemsHaveWords, Bool.and_eq_true] at hwords
      rw [spellItems] at hfuel
      have hclose : skipSpaces (']' :: rest) = ']' :: rest := rfl
      have hread := readValue_spell v hwords.1 (isCovered_any v) (Nat.le_of_succ_le_succ hfuel)
        (ends_cons (Or.inr (Or.inl rfl)) rest)
      rw [spellItems, readItems, hshape, hread]
      simp only [hclose]
  | v :: w :: ws =>
      rw [itemsHaveWords, Bool.and_eq_true] at hwords
      rw [spellItems, List.length_append, List.length_cons] at hfuel
      have hfirst : v.spell.length ≤ fuel := by omega
      have hmore : (spellItems (w :: ws)).length + 1 ≤ fuel := by omega
      have hcomma : skipSpaces (',' :: (spellItems (w :: ws) ++ ']' :: rest)) =
          ',' :: (spellItems (w :: ws) ++ ']' :: rest) := rfl
      have hread := readValue_spell v hwords.1 (isCovered_any v) hfirst
        (ends_cons (Or.inl rfl) (spellItems (w :: ws) ++ ']' :: rest))
      have hreads := readItems_spell (w :: ws) rest (List.cons_ne_nil w ws) hwords.2 hmore
      rw [spellItems, List.append_assoc, List.cons_append, readItems, hshape, hread]
      simp only [hcomma, hreads, Option.map_some]

/-- The texts of fields are read as the fields. -/
theorem readFields_spell (fields : List (String × Json)) {shape : Shape} {fuel : Nat}
    (rest : List Char) (hne : fields ≠ []) (hwords : fieldsHaveWords fields = true)
    (hcovered : fieldsAreCovered fields shape = true)
    (hfuel : (spellFields fields).length + 1 ≤ fuel) :
    readFields fuel shape (spellFields fields ++ '\x7d' :: rest) = some (fields, rest) := by
  obtain ⟨fuel, rfl⟩ : ∃ n, fuel = n + 1 := ⟨fuel - 1, by omega⟩
  have hcolon : ∀ cs, skipSpaces (':' :: cs) = ':' :: cs := fun _ => rfl
  match fields with
  | [] => exact absurd rfl hne
  | [(key, v)] =>
      rw [fieldsHaveWords, Bool.and_eq_true] at hwords
      rw [fieldsAreCovered, Bool.and_eq_true] at hcovered
      rw [spellFields, List.length_append, List.length_cons] at hfuel
      have hlength : v.spell.length ≤ fuel := by omega
      have hkeeps := keeps_of_isCovered hcovered.1
      have hclose : skipSpaces ('\x7d' :: rest) = '\x7d' :: rest := rfl
      have hread := readValue_spell v hwords.1 hcovered.1 hlength
        (ends_cons (Or.inr (Or.inr rfl)) rest)
      rw [spellFields, List.append_assoc, List.cons_append, readFields, skipSpaces_spellString]
      simp only [readText_spelled (keeps_of_field hkeeps), hcolon, hread, hclose, consKept,
        hkeeps, if_true]
  | (key, v) :: w :: ws =>
      rw [fieldsHaveWords, Bool.and_eq_true] at hwords
      rw [fieldsAreCovered, Bool.and_eq_true] at hcovered
      rw [spellFields, List.length_append, List.length_cons, List.length_append,
        List.length_cons] at hfuel
      have hfirst : v.spell.length ≤ fuel := by omega
      have hmore : (spellFields (w :: ws)).length + 1 ≤ fuel := by omega
      have hkeeps := keeps_of_isCovered hcovered.1
      have hcomma : skipSpaces (',' :: (spellFields (w :: ws) ++ '\x7d' :: rest)) =
          ',' :: (spellFields (w :: ws) ++ '\x7d' :: rest) := rfl
      have hread := readValue_spell v hwords.1 hcovered.1 hfirst
        (ends_cons (Or.inl rfl) (spellFields (w :: ws) ++ '\x7d' :: rest))
      have hreads := readFields_spell (w :: ws) rest (List.cons_ne_nil w ws) hwords.2 hcovered.2
        hmore
      rw [spellFields, List.append_assoc, List.cons_append, List.append_assoc, List.cons_append,
        readFields, skipSpaces_spellString]
      simp only [readText_spelled (keeps_of_field hkeeps), hcolon, hread, hcomma, hreads,
        Option.map_some, consKept, hkeeps, if_true]

end

/-- The text of a value, its numbers integers, is read as the value. -/
theorem readAs?_spell {v : Json} {shape : Shape} (hwords : v.hasWords = true)
    (hcovered : v.isCovered shape = true) : readAs? shape v.spell = some v := by
  have hread := readValue_spell v hwords hcovered (Nat.le_succ v.spell.length) ends_nil
  rw [List.append_nil] at hread
  rw [readAs?, hread]
  rfl

end Json

/-! ## Repeated keys -/

namespace Fields

@[simp] theorem keys_nil : keys [] = [] := rfl

@[simp] theorem keys_cons (key : String) (v : Json) (rest : Fields) :
    keys ((key, v) :: rest) = key :: keys rest := rfl

@[simp] theorem keys_append (fields fields' : Fields) :
    keys (fields ++ fields') = keys fields ++ keys fields' := List.map_append

theorem get?_eq_none_iff {key : String} {fields : Fields} :
    get? key fields = none ↔ key ∉ fields.keys := by
  induction fields with
  | nil => simp [get?]
  | cons field rest ih =>
      obtain ⟨k, v⟩ := field
      rw [get?, keys_cons, List.mem_cons, not_or]
      by_cases hk : k = key
      · simp [hk]
      · rw [if_neg hk, ih]
        exact ⟨fun h => ⟨fun hkey => hk hkey.symm, h⟩, fun h => h.2⟩

theorem distinct_iff {fields : Fields} : distinct fields = true ↔ fields.keys.Nodup := by
  induction fields with
  | nil => simp [distinct]
  | cons field rest ih =>
      obtain ⟨key, v⟩ := field
      rw [distinct, Bool.and_eq_true, Option.isNone_iff_eq_none, get?_eq_none_iff, ih,
        keys_cons, List.nodup_cons]

/-- A new key comes last. -/
theorem set_of_not_mem {key : String} {fields : Fields} (h : key ∉ fields.keys) (v : Json) :
    set key v fields = fields ++ [(key, v)] := by
  induction fields with
  | nil => rfl
  | cons field rest ih =>
      obtain ⟨k, w⟩ := field
      rw [keys_cons, List.mem_cons, not_or] at h
      rw [set, if_neg fun hk => h.1 hk.symm, ih h.2, List.cons_append]

end Fields

namespace Json

mutual

/-- Nothing is merged in a value where no object repeats a key. -/
theorem settle_of_hasDistinctKeys (v : Json) (h : v.hasDistinctKeys = true) : v.settle = v := by
  cases v with
  | array items =>
      rw [hasDistinctKeys] at h
      rw [settle, settleItems_of_hasDistinctKeys items h]
  | object fields =>
      rw [hasDistinctKeys, Bool.and_eq_true] at h
      rw [settle, settleFields_of_hasDistinctKeys fields [] h.2 (Fields.distinct_iff.mp h.1)]
      rfl
  | _ => rw [settle] <;> intros <;> contradiction

theorem settleItems_of_hasDistinctKeys (items : List Json)
    (h : itemsHaveDistinctKeys items = true) : settleItems items = items := by
  match items with
  | [] => rw [settleItems]
  | v :: rest =>
      rw [itemsHaveDistinctKeys, Bool.and_eq_true] at h
      rw [settleItems, settle_of_hasDistinctKeys v h.1, settleItems_of_hasDistinctKeys rest h.2]

/-- Fields with new keys are put behind the fields so far. -/
theorem settleFields_of_hasDistinctKeys (fields : List (String × Json)) (sofar : Fields)
    (h : fieldsHaveDistinctKeys fields = true) (hkeys : (Fields.keys (sofar ++ fields)).Nodup) :
    settleFields sofar fields = sofar ++ fields := by
  match fields with
  | [] => rw [settleFields, List.append_nil]
  | (key, v) :: rest =>
      rw [fieldsHaveDistinctKeys, Bool.and_eq_true] at h
      have hnew : key ∉ Fields.keys sofar := by
        intro hmem
        rw [Fields.keys_append, Fields.keys_cons] at hkeys
        exact (List.nodup_append.mp hkeys).2.2 key hmem key List.mem_cons_self rfl
      rw [← List.singleton_append, ← List.append_assoc] at hkeys ⊢
      rw [List.singleton_append, settleFields, settle_of_hasDistinctKeys v h.1,
        Fields.set_of_not_mem hnew, settleFields_of_hasDistinctKeys rest _ h.2 hkeys]

end

end Json

end Chronicle
