import Chronicle.Proofs.Spelling
import Chronicle.UniqueId
import Mathlib.Algebra.Ring.Nat

set_option autoImplicit false

/-!
# Ids are read back

The digits of an id spell its number, and the hyphens of its text stand where a reader expects
them. Main statement: the text of an id reads back as that id (`UniqueId.parse?_text`).
-/

namespace Chronicle

namespace Text

theorem length_hexDigits (width n : Nat) : (hexDigits width n).length = width := by
  induction width generalizing n with
  | zero => rfl
  | succ width ih => rw [hexDigits, List.length_append, ih, List.length_singleton]

theorem mem_hexDigits {width n : Nat} {c : Char} (h : c ∈ hexDigits width n) :
    c ∈ "0123456789abcdef".toList := by
  induction width generalizing n with
  | zero => exact absurd h List.not_mem_nil
  | succ width ih =>
      rcases List.mem_append.mp h with h | h
      · exact ih h
      · rw [List.mem_singleton.mp h]
        exact hexDigit_mem (Nat.mod_lt _ (by decide))

theorem hexNumberFrom?_append (n : Nat) (cs ds : List Char) :
    hexNumberFrom? n (cs ++ ds) = (hexNumberFrom? n cs).bind fun m => hexNumberFrom? m ds := by
  induction cs generalizing n with
  | nil => rfl
  | cons c cs ih =>
      rw [List.cons_append, hexNumberFrom?, hexNumberFrom?]
      cases hexValue? c with
      | none => rfl
      | some d => exact ih _

theorem hexNumberFrom?_hexDigits (start width n : Nat) :
    hexNumberFrom? start (hexDigits width n) = some (start * 16 ^ width + n % 16 ^ width) := by
  induction width generalizing n with
  | zero => simp [hexDigits, hexNumberFrom?, Nat.mod_one]
  | succ width ih =>
      rw [hexDigits, hexNumberFrom?_append, ih, Option.bind_some]
      simp only [hexNumberFrom?, hexValue?_hexDigit (Nat.mod_lt n (show 0 < 16 by decide))]
      -- the digits in front spell the quotient by 16, and the last one the rest
      have hsplit : n % 16 ^ (width + 1) = n / 16 % 16 ^ width * 16 + n % 16 := by
        rw [Nat.pow_succ', Nat.mod_mul, Nat.mul_comm, Nat.add_comm]
      rw [hsplit, Nat.pow_succ, Nat.add_mul, Nat.mul_assoc, Nat.add_assoc]

/-- Digits spell the number that they were made of, as far as it has room. -/
theorem hexNumber?_hexDigits (width n : Nat) :
    hexNumber? (hexDigits width n) = some (n % 16 ^ width) := by
  rw [hexNumber?, hexNumberFrom?_hexDigits, Nat.zero_mul, Nat.zero_add]

end Text

open Text

namespace UniqueId

/-- Hyphens between groups of 8, 4, 4, 4 and 12 digits are dropped. -/
theorem dropHyphens?_groups {a b c d e : List Char} (ha : a.length = 8) (hb : b.length = 4)
    (hc : c.length = 4) (hd : d.length = 4) (he : e.length = 12) :
    dropHyphens? (a ++ '-' :: b ++ '-' :: c ++ '-' :: d ++ '-' :: e) =
      some (a ++ b ++ c ++ d ++ e) := by
  simp [dropHyphens?, List.drop_append, List.drop_eq_nil_of_le, ha, hb, hc, hd,
    he]

/-- The groups of a text's digits, one behind the other, are the digits. -/
theorem groups_append (ds : List Char) :
    ds.take 8 ++ (ds.drop 8).take 4 ++ (ds.drop 12).take 4 ++ (ds.drop 16).take 4 ++ ds.drop 20 =
      ds := by
  have h12 : ds.take 8 ++ (ds.drop 8).take 4 = ds.take 12 := List.take_add.symm
  have h16 : ds.take 12 ++ (ds.drop 12).take 4 = ds.take 16 := List.take_add.symm
  have h20 : ds.take 16 ++ (ds.drop 16).take 4 = ds.take 20 := List.take_add.symm
  rw [h12, h16, h20, List.take_append_drop]

theorem dropHyphens?_spell (id : UniqueId) :
    dropHyphens? id.spell = some (hexDigits 32 id.number) := by
  have hlength := length_hexDigits 32 id.number
  unfold spell
  dsimp only
  rw [dropHyphens?_groups, groups_append]
  all_goals simp [hlength]

/-- The text of an id is that of 36 characters, of which the first is a digit. -/
theorem spell_eq_cons (id : UniqueId) :
    ∃ c cs, id.spell = c :: cs ∧ cs.length = 35 ∧ c ∈ "0123456789abcdef".toList := by
  have hlength := length_hexDigits 32 id.number
  cases hds : hexDigits 32 id.number with
  | nil => rw [hds] at hlength; cases hlength
  | cons c ds =>
      have hmem : c ∈ hexDigits 32 id.number := hds ▸ List.mem_cons_self
      have htail : ds.length = 31 := by simpa [hds] using hlength
      refine ⟨c, id.spell.tail, ?_, ?_, mem_hexDigits hmem⟩
      · simp [spell, hds]
      · simp [spell, hds, htail]

theorem digits?_spell (id : UniqueId) : digits? id.spell = some (hexDigits 32 id.number) := by
  have hdrop := dropHyphens?_spell id
  obtain ⟨c, cs, hspell, hlength, hc⟩ := spell_eq_cons id
  rw [hspell] at hdrop ⊢
  -- the first digit rules out a URN and braces
  have hurn : c ≠ 'u' := fun h => absurd (h ▸ hc) (by decide)
  have hbrace : c ≠ '\x7b' := fun h => absurd (h ▸ hc) (by decide)
  simp [digits?, hurn, hbrace, hlength, hdrop]

/-- The text of an id reads back as that id. -/
theorem parse?_text (id : UniqueId) : parse? id.text = some id := by
  have hnumber : id.number % 16 ^ 32 = id.number := Nat.mod_eq_of_lt id.number_lt
  have hread : hexNumber? (hexDigits 32 id.number) = some id.number := by
    rw [hexNumber?_hexDigits, hnumber]
  -- an id has room in 32 digits, so none of its number is lost
  rw [parse?, text, String.toList_ofList, digits?_spell]
  simp only [Option.bind_eq_bind, Option.bind_some, hread]
  exact dif_pos id.number_lt

end UniqueId

end Chronicle
