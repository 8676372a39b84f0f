import Chronicle.Proofs.Lines

set_option autoImplicit false

/-!
# The line of a stored envelope

The line of a stored envelope starts with its id and its kind. Main statement: whatever else is
read from that line, the record has the same id and the same kind (`reread?_envelopes_keeps`).
-/

namespace Chronicle

namespace Json

/-! ## Strings in the fields of an object -/

/-- A field with a string is read before the fields that follow it. -/
theorem readFields_spellString (fuel : Nat) (key text : String) (rest : List Char) :
    readFields (fuel + 2) .any (spellString key ++ ':' :: (spellString text ++ ',' :: rest)) =
      (readFields (fuel + 1) .any rest).map fun r => ((key, .string text) :: r.1, r.2) := by
  have hcolon : skipSpaces (':' :: (spellString text ++ ',' :: rest)) =
      ':' :: (spellString text ++ ',' :: rest) := rfl
  have hcomma : skipSpaces (',' :: rest) = ',' :: rest := rfl
  have hfield : Shape.field key .any = .any := rfl
  have hkeeps : Shape.keeps .any = true := rfl
  rw [readFields, skipSpaces_spellString]
  simp only [readText_spelled hkeeps, hcolon, hfield, readValue_spellString _ hkeeps, hcomma,
    consKept, hkeeps, if_true]

/-- What an object reads as whose first two fields hold strings. -/
theorem readAs?_two_strings {key key' text text' : String} {w : String × Json}
    {fields : List (String × Json)} {v : Json}
    (h : readAs? .any
      (object ((key, .string text) :: (key', .string text') :: w :: fields)).spell = some v) :
    ∃ more, v = object ((key, .string text) :: (key', .string text') :: more) := by
  have hspell : (object ((key, .string text) :: (key', .string text') :: w :: fields)).spell =
      '\x7b' :: (spellString key ++ ':' :: (spellString text ++ ',' ::
        (spellString key' ++ ':' :: (spellString text' ++ ',' ::
          (spellFields (w :: fields) ++ ['\x7d']))))) := by
    simp [spell, spellFields]
  -- the text is long enough to read two fields
  obtain ⟨fuel, hfuel⟩ : ∃ fuel,
      (object ((key, .string text) :: (key', .string text') :: w :: fields)).spell.length =
        fuel + 3 := by
    refine ⟨_, (Nat.sub_add_cancel ?_).symm⟩
    rw [hspell]
    simp [spellString]
    omega
  rw [readAs?, hfuel, hspell, readValue_object, readFields_spellString,
    readFields_spellString] at h
  cases hmore : readFields (fuel + 1) .any (spellFields (w :: fields) ++ ['\x7d']) with
  | none =>
      rw [hmore] at h
      cases h
  | some r =>
      rw [hmore] at h
      simp only [Option.map_some] at h
      split at h
      · exact ⟨r.1, (Option.some.inj h).symm⟩
      · cases h

/-! ## Values that are the same -/

mutual

/-- Whether two values are the same, with their fields in the same order. -/
def identical : Json → Json → Bool
  | .null, .null => true
  | .bool a, .bool b => a == b
  | .number m, .number n => decide (m = n)
  | .string s, .string t => s == t
  | .array vs, .array ws => identicalItems vs ws
  | .object fs, .object gs => identicalFields fs gs
  | _, _ => false

/-- Whether two lists of items are the same. -/
def identicalItems : List Json → List Json → Bool
  | [], [] => true
  | v :: vs, w :: ws => identical v w && identicalItems vs ws
  | _, _ => false

/-- Whether two lists of fields are the same. -/
def identicalFields : List (String × Json) → List (String × Json) → Bool
  | [], [] => true
  | (key, v) :: fs, (key', w) :: gs => key == key' && identical v w && identicalFields fs gs
  | _, _ => false

end

mutual

theorem identical_iff (v w : Json) : identical v w = true ↔ v = w := by
  cases v with
  | array vs =>
      cases w with
      | array ws => simp [identical, identicalItems_iff vs ws]
      | _ => simp [identical]
  | object fs =>
      cases w with
      | object gs => simp [identical, identicalFields_iff fs gs]
      | _ => simp [identical]
  | _ => cases w <;> simp [identical]

theorem identicalItems_iff (vs ws : List Json) : identicalItems vs ws = true ↔ vs = ws := by
  cases vs with
  | nil => cases ws <;> simp [identicalItems]
  | cons v vs =>
      cases ws with
      | nil => simp [identicalItems]
      | cons w ws => simp [identicalItems, identical_iff v w, identicalItems_iff vs ws]

theorem identicalFields_iff (fs gs : List (String × Json)) :
    identicalFields fs gs = true ↔ fs = gs := by
  cases fs with
  | nil => cases gs <;> simp [identicalFields]
  | cons f fs =>
      obtain ⟨key, v⟩ := f
      cases gs with
      | nil => simp [identicalFields]
      | cons g gs =>
          simp [identicalFields, identical_iff v g.2, identicalFields_iff fs gs, Prod.ext_iff]

end

instance : DecidableEq Json := fun v w => decidable_of_iff _ (identical_iff v w)

end Json

deriving instance DecidableEq for Envelope

deriving instance DecidableEq for StoredEnvelope

namespace RecordFormat

/-- An envelope that is read from fields with a kind at their head has that kind. -/
theorem kind_of_ofFields? {blank : Json → Bool} {kind : EnvelopeKind} {id : Json}
    {fields : Fields} {e : Envelope}
    (h : Envelope.ofFields? blank (("id", id) :: ("kind", .string kind.word) :: fields) = some e) :
    e.kind = kind := by
  have hkind : Fields.required? "kind" (fun v => (v.word? blank).bind EnvelopeKind.ofWord?)
      (("id", id) :: ("kind", .string kind.word) :: fields) = some kind := by
    cases kind <;> rfl
  rw [Envelope.ofFields?, hkind] at h
  obtain ⟨k, hk, h⟩ := Option.bind_eq_some_iff.mp h
  -- the nine fields after the kind may be anything
  iterate 9 obtain ⟨_, -, h⟩ := Option.bind_eq_some_iff.mp h
  cases hk
  cases h
  rfl

/-- The fields of a record that are known start with its id and its kind if all of them do. -/
theorem known?_two_strings {id kind : String} {more found : Fields}
    (h : Fields.known? ("id" :: Envelope.fieldNames)
      (("id", .string id) :: ("kind", .string kind) :: more) = some found) :
    ∃ rest, found = ("id", .string id) :: ("kind", .string kind) :: rest := by
  have hid : ("id" :: Envelope.fieldNames).contains "id" = true := rfl
  have hkind : ("id" :: Envelope.fieldNames).contains "kind" = true := rfl
  simp only [Fields.known?, List.filter_cons, hid, hkind, if_true] at h
  split at h
  · exact ⟨_, (Option.some.inj h).symm⟩
  · cases h

/-- Whatever is read from the line of an envelope has its id and its kind. -/
theorem reread?_envelopes_keeps {r r' : StoredEnvelope} (h : envelopes.reread? r = some r') :
    r'.id = r.id ∧ r'.envelope.kind = r.envelope.kind := by
  unfold reread? Lines.readLine? at h
  obtain ⟨v, hread, hdecode⟩ := Option.bind_eq_some_iff.mp h
  have hjson : ∃ w fields, envelopes.encode r = .object
      (("id", .string r.id.text) :: ("kind", .string r.envelope.kind.word) :: w :: fields) :=
    ⟨_, _, rfl⟩
  obtain ⟨w, fields, hjson⟩ := hjson
  rw [hjson] at hread
  -- the two strings at the head are read whatever follows them
  obtain ⟨more, rfl⟩ := Json.readAs?_two_strings hread
  split at hdecode
  · have hrecord : StoredEnvelope.ofJson? _ = some r' := hdecode
    unfold StoredEnvelope.ofJson? at hrecord
    obtain ⟨found, hfound, hrecord⟩ := Option.bind_eq_some_iff.mp hrecord
    obtain ⟨rest, rfl⟩ := known?_two_strings hfound
    obtain ⟨id, hid, hrecord⟩ := Option.bind_eq_some_iff.mp hrecord
    obtain ⟨e, he, hrecord⟩ := Option.bind_eq_some_iff.mp hrecord
    cases hrecord
    simp only [Fields.required?, Fields.get?, if_true, Option.bind_some, Json.id?,
      UniqueId.parse?_text, Option.some.injEq] at hid
    exact ⟨hid.symm, kind_of_ofFields? he⟩
  · cases hdecode

end RecordFormat

end Chronicle
