import Chronicle.Json.Printer
import Chronicle.Json.Reader
import Chronicle.Text.Blank
import Mathlib.Tactic.SplitIfs

set_option autoImplicit false

/-!
# Spelled values stand on one line

The compact text of a value holds neither a line feed nor a carriage return, since strings escape
them. Main statements: every spelled value is on one line (`Json.oneLine_spell`), and a spelled
string is read back (`Json.readChars_flatMap_spellChar`).
-/

namespace Chronicle

namespace Text

/-- A text without line feeds and carriage returns. -/
def OneLine (cs : List Char) : Prop := ∀ c ∈ cs, c ≠ '\n' ∧ c ≠ '\r'

@[simp] theorem oneLine_nil : OneLine [] := fun _ hc => absurd hc List.not_mem_nil

@[simp] theorem oneLine_cons {c : Char} {cs : List Char} :
    OneLine (c :: cs) ↔ (c ≠ '\n' ∧ c ≠ '\r') ∧ OneLine cs := by
  simp [OneLine]

@[simp] theorem oneLine_append {cs ds : List Char} :
    OneLine (cs ++ ds) ↔ OneLine cs ∧ OneLine ds := by
  simp only [OneLine, List.forall_mem_append]

theorem OneLine.sublist {cs ds : List Char} (h : OneLine ds) (hs : cs.Sublist ds) :
    OneLine cs := fun c hc => h c (hs.subset hc)

theorem oneLine_flatMap {α : Type} {f : α → List Char} {as : List α}
    (h : ∀ a ∈ as, OneLine (f a)) : OneLine (as.flatMap f) := by
  intro c hc
  obtain ⟨a, ha, hca⟩ := List.mem_flatMap.mp hc
  exact h a ha c hca

theorem oneLine_replicate {c : Char} (hc : c ≠ '\n' ∧ c ≠ '\r') (n : Nat) :
    OneLine (List.replicate n c) := by
  intro d hd
  rw [List.eq_of_mem_replicate hd]
  exact hc

theorem oneLine_toDigits (n : Nat) : OneLine (Nat.toDigits 10 n) := by
  intro c hc
  have hdigit : c.isDigit := Nat.isDigit_of_mem_toDigits (by decide) (by decide) hc
  constructor
  · rintro rfl
    exact absurd hdigit (by decide)
  · rintro rfl
    exact absurd hdigit (by decide)

/-- A hexadecimal digit reads back as its value. -/
theorem hexValue?_hexDigit {n : Nat} (hn : n < 16) : hexValue? (hexDigit n) = some n := by
  have hall : ∀ k : Fin 16, hexValue? (hexDigit k) = some k.val := by decide
  exact hall ⟨n, hn⟩

/-- A hexadecimal digit is no other character than the digits and the letters up to f. -/
theorem hexDigit_mem {n : Nat} (hn : n < 16) : hexDigit n ∈ "0123456789abcdef".toList := by
  have hall : ∀ k : Fin 16, hexDigit k ∈ "0123456789abcdef".toList := by decide
  exact hall ⟨n, hn⟩

theorem hexDigit_ne {n : Nat} (hn : n < 16) {c : Char} (hc : c ∉ "0123456789abcdef".toList) :
    hexDigit n ≠ c := fun h => hc (h ▸ hexDigit_mem hn)

end Text

open Text

namespace Binary64

/-- The text of a decimal is digits, a point and an exponent. -/
theorem oneLine_spell_decimal (d : Decimal) : OneLine d.spell := by
  have hds := oneLine_toDigits d.digits
  have htake : ∀ n, OneLine ((Nat.toDigits 10 d.digits).take n) :=
    fun n => hds.sublist (List.take_sublist _ _)
  have hdrop : ∀ n, OneLine ((Nat.toDigits 10 d.digits).drop n) :=
    fun n => hds.sublist (List.drop_sublist _ _)
  have htail : OneLine (Nat.toDigits 10 d.digits).tail := hds.sublist (List.tail_sublist _)
  have hzeros : ∀ n, OneLine (List.replicate n '0') := oneLine_replicate (by decide)
  have hexponent : ∀ n, OneLine (Nat.toDigits 10 n) := oneLine_toDigits
  unfold Decimal.spell
  dsimp only
  split_ifs <;> simp [hds, htake, hdrop, htail, hzeros, hexponent]

theorem oneLine_spell (x : Binary64) : OneLine x.spell := by
  have hdigits : OneLine (if x.units = 0 then ['0', '.', '0'] else (shortest x.units).spell) := by
    split
    · simp
    · exact oneLine_spell_decimal _
  unfold spell
  dsimp only
  split
  · exact oneLine_cons.mpr ⟨by decide, hdigits⟩
  · exact hdigits

end Binary64

theorem Number.oneLine_spell (n : Number) : OneLine n.spell := by
  cases n with
  | int n =>
      show OneLine (spellInt n)
      unfold spellInt
      split
      · exact oneLine_cons.mpr ⟨by decide, oneLine_toDigits _⟩
      · exact oneLine_toDigits _
  | float x => exact x.oneLine_spell

namespace Json

/-! ## Strings -/

/-- How a character is written inside a string, by the three ways of writing one. -/
theorem spellChar_cases (c : Char) :
    (∃ d, spellChar c = ['\\', d] ∧ escaped? d = some c ∧ d ≠ 'u' ∧ d ≠ '\n' ∧ d ≠ '\r') ∨
      (c.toNat < 0x20 ∧ spellChar c =
        ['\\', 'u', '0', '0', hexDigit (c.toNat / 16), hexDigit (c.toNat % 16)]) ∨
      (0x20 ≤ c.toNat ∧ c ≠ '"' ∧ c ≠ '\\' ∧ spellChar c = [c]) := by
  unfold spellChar
  split_ifs with hquote hback hfeed hreturn htab hbell hform hcontrol
  · exact Or.inl ⟨'"', rfl, by rw [hquote]; rfl, by decide⟩
  · exact Or.inl ⟨'\\', rfl, by rw [hback]; rfl, by decide⟩
  · exact Or.inl ⟨'n', rfl, by rw [hfeed]; rfl, by decide⟩
  · exact Or.inl ⟨'r', rfl, by rw [hreturn]; rfl, by decide⟩
  · exact Or.inl ⟨'t', rfl, by rw [htab]; rfl, by decide⟩
  · exact Or.inl ⟨'b', rfl, by rw [hbell]; rfl, by decide⟩
  · exact Or.inl ⟨'f', rfl, by rw [hform]; rfl, by decide⟩
  · exact Or.inr (Or.inl ⟨hcontrol, rfl⟩)
  · exact Or.inr (Or.inr ⟨by omega, hquote, hback, rfl⟩)

theorem oneLine_spellChar (c : Char) : OneLine (spellChar c) := by
  rcases spellChar_cases c with ⟨d, hd, -, -, hfeed, hreturn⟩ | ⟨hc, hspell⟩ |
    ⟨hc, -, -, hspell⟩
  -- an escape of two characters: neither a feed nor a return stands for itself
  · rw [hd]
    simp [hfeed, hreturn]
  -- a control character is written with hexadecimal digits
  · have hhigh : c.toNat / 16 < 16 := by omega
    have hlow : c.toNat % 16 < 16 := Nat.mod_lt _ (by decide)
    rw [hspell]
    simp [hexDigit_ne hhigh (c := '\n') (by decide),
      hexDigit_ne hhigh (c := '\r') (by decide), hexDigit_ne hlow (c := '\n') (by decide),
      hexDigit_ne hlow (c := '\r') (by decide)]
  -- any other character is written as it is, and is no control character
  · have hfeed : c ≠ '\n' := by
      rintro rfl
      exact absurd hc (by decide)
    have hreturn : c ≠ '\r' := by
      rintro rfl
      exact absurd hc (by decide)
    rw [hspell]
    simp [hfeed, hreturn]

theorem oneLine_spellString (text : String) : OneLine (spellString text) := by
  have hchars : OneLine (text.toList.flatMap spellChar) :=
    oneLine_flatMap fun c _ => oneLine_spellChar c
  unfold spellString
  simp [hchars]

/-- A written character is read as itself. -/
theorem readChars_spellChar (c : Char) (rest : List Char) :
    readChars (spellChar c ++ rest) = (readChars rest).map fun r => (c :: r.1, r.2) := by
  rcases spellChar_cases c with ⟨d, hd, hescaped, hu, -, -⟩ | ⟨hc, hspell⟩ |
    ⟨hc, hquote, hback, hspell⟩
  · rw [hd]
    simp only [List.cons_append, List.nil_append]
    rw [readChars]
    · rw [hescaped]
    · intro a b c' d' rest' h
      exact absurd h hu
  · have hhigh : c.toNat / 16 < 16 := by omega
    have hlow : c.toNat % 16 < 16 := Nat.mod_lt _ (by decide)
    have hquad : hexQuad? '0' '0' (hexDigit (c.toNat / 16)) (hexDigit (c.toNat % 16)) =
        some c.toNat := by
      have hzero : hexValue? '0' = some 0 := by decide
      simp only [hexQuad?, hexValue?_hexDigit hhigh, hexValue?_hexDigit hlow, hzero,
        Option.bind_eq_bind, Option.bind_some, Option.pure_def, Option.some.injEq]
      omega
    -- a control character is no half of a surrogate pair
    have hlone : ¬(0xD800 ≤ c.toNat ∧ c.toNat < 0xDC00) := by omega
    have hlone' : ¬(0xDC00 ≤ c.toNat ∧ c.toNat < 0xE000) := by omega
    rw [hspell]
    simp only [List.cons_append, List.nil_append]
    rw [readChars, hquad]
    simp only [if_neg hlone, if_neg hlone', Char.ofNat_toNat]
  · rw [hspell]
    simp only [List.cons_append, List.nil_append]
    rw [readChars, if_neg (Nat.not_lt.mpr hc)]
    · exact hquote
    · intro _ _ _ _ _ h
      exact absurd h hback
    · intro _ _ h
      exact absurd h hback

/-- A written string is read as itself. -/
theorem readChars_flatMap_spellChar (cs rest : List Char) :
    readChars (cs.flatMap spellChar ++ '"' :: rest) = some (cs, rest) := by
  induction cs with
  | nil => rw [List.flatMap_nil, List.nil_append, readChars]
  | cons c cs ih =>
      rw [List.flatMap_cons, List.append_assoc, readChars_spellChar, ih]
      rfl

/-- A written string is read up to its closing quote. -/
theorem readText_spelled {shape : Shape} (hkeeps : shape.keeps = true) (text : String)
    (rest : List Char) :
    readText shape (text.toList.flatMap spellChar ++ '"' :: rest) = some (text, rest) := by
  rw [readText, if_pos hkeeps, readChars_flatMap_spellChar, Option.map_some, String.ofList_toList]

theorem spellString_append (text : String) (rest : List Char) :
    spellString text ++ rest = '"' :: (text.toList.flatMap spellChar ++ '"' :: rest) := by
  simp [spellString]

/-- No blank stands before a written string. -/
theorem skipSpaces_spellString (text : String) (rest : List Char) :
    skipSpaces (spellString text ++ rest) =
      '"' :: (text.toList.flatMap spellChar ++ '"' :: rest) := by
  rw [spellString_append]
  rfl

theorem readValue_spellString (fuel : Nat) {shape : Shape} (hkeeps : shape.keeps = true)
    (text : String) (rest : List Char) :
    readValue (fuel + 1) shape (spellString text ++ rest) = some (.string text, rest) := by
  rw [readValue, skipSpaces_spellString]
  simp only [readText_spelled hkeeps, Option.map_some]

/-- A text with a string at its head is read as an object by reading its fields. -/
theorem readValue_object (fuel : Nat) (shape : Shape) (key : String) (rest : List Char) :
    readValue (fuel + 1) shape ('\x7b' :: (spellString key ++ rest)) =
      (readFields fuel shape (spellString key ++ rest)).map fun r => (object r.1, r.2) := by
  have hbrace : skipSpaces ('\x7b' :: (spellString key ++ rest)) =
      '\x7b' :: (spellString key ++ rest) := rfl
  rw [readValue, hbrace]
  simp only [skipSpaces_spellString]
  rw [spellString_append]
  rfl

/-! ## Values -/

mutual

theorem oneLine_spell (v : Json) : OneLine v.spell := by
  cases v with
  | null => simp [spell]
  | bool b => cases b <;> simp [spell]
  | number n => exact n.oneLine_spell
  | string text => exact oneLine_spellString text
  | array items =>
      have hitems := oneLine_spellItems items
      simp [spell, hitems]
  | object fields =>
      have hfields := oneLine_spellFields fields
      simp [spell, hfields]

theorem oneLine_spellItems (items : List Json) : OneLine (spellItems items) := by
  match items with
  | [] => simp [spellItems]
  | [v] => exact oneLine_spell v
  | v :: w :: rest =>
      have hfirst := oneLine_spell v
      have hrest := oneLine_spellItems (w :: rest)
      simp [spellItems, hfirst, hrest]

theorem oneLine_spellFields (fields : List (String × Json)) : OneLine (spellFields fields) := by
  match fields with
  | [] => simp [spellFields]
  | [(key, v)] =>
      have hkey := oneLine_spellString key
      have hvalue := oneLine_spell v
      simp [spellFields, hkey, hvalue]
  | (key, v) :: w :: rest =>
      have hkey := oneLine_spellString key
      have hvalue := oneLine_spell v
      have hrest := oneLine_spellFields (w :: rest)
      simp [spellFields, hkey, hvalue, hrest]

end

end Json

end Chronicle
