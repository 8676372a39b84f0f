import Chronicle.Proofs.JsonReading
import Chronicle.Proofs.Lines
import Chronicle.Proofs.TimestampText

set_option autoImplicit false

/-!
# Records are read back from their lines

A record is the same after it was written to a line and read from it, if its text can tell all of
it: its times lie in years of four digits and in no leap second but one after the last second of a
minute, the numbers of its value are integers, no object in it repeats a key, and it is not nested
too deep. Names and ids always read back, and so do strings of any characters. Main statements: so
it is for envelopes (`RecordFormat.reread?_envelopes`) and for read models
(`RecordFormat.reread?_readModels`), and the times of whatever is read have such leap seconds only
(`Envelope.leap_of_ofFields?`).
-/

namespace Chronicle

/-! ## Fields that are read back -/

namespace Fields

/-- Known fields in the order of their names are kept as they are. -/
theorem known?_of_sublist {names : List String} {fields : Fields} (hnames : names.Nodup)
    (h : fields.keys.Sublist names) : known? names fields = some fields := by
  have hkept : fields.filter (fun f => names.contains f.1) = fields := by
    apply List.filter_eq_self.mpr
    intro f hf
    exact List.contains_iff_mem.mpr (h.subset (List.mem_map_of_mem hf))
  have hdistinct : distinct fields = true := distinct_iff.mpr (hnames.sublist h)
  rw [known?, hkept, if_pos hdistinct]

theorem get?_append (key : String) (fields fields' : Fields) :
    get? key (fields ++ fields') = (get? key fields).or (get? key fields') := by
  induction fields with
  | nil => rfl
  | cons field rest ih =>
      obtain ⟨k, v⟩ := field
      rw [List.cons_append, get?, get?]
      by_cases hk : k = key
      · rw [if_pos hk, if_pos hk, Option.some_or]
      · rw [if_neg hk, if_neg hk, ih]

theorem get?_ofOption (key k : String) (o : Option Json) :
    get? key (ofOption k o) = if k = key then o else none := by
  cases o with
  | none => simp [ofOption, get?]
  | some v => rfl

theorem keys_ofOption (key : String) (o : Option Json) :
    (keys (ofOption key o)).Sublist [key] := by
  cases o with
  | none => exact List.nil_sublist _
  | some v => exact List.Sublist.refl _

variable {α : Type} {key : String} {fields : Fields}

theorem of_required? {read : Json → Option α} {a : α} (h : required? key read fields = some a) :
    ∃ v, read v = some a := by
  obtain ⟨v, -, hread⟩ := Option.bind_eq_some_iff.mp h
  exact ⟨v, hread⟩

theorem of_optional? {read : Json → Option α} {a : α}
    (h : optional? key read fields = some (some a)) : ∃ v, read v = some a := by
  unfold optional? at h
  split at h
  · cases h
  · cases h
  · next v _ hget =>
    obtain ⟨b, hread, hb⟩ := Option.map_eq_some_iff.mp h
    cases hb
    exact ⟨v, hread⟩

theorem required?_eq {read : Json → Option α} {v : Json} {a : α} (hget : get? key fields = some v)
    (hread : read v = some a) : required? key read fields = some a := by
  rw [required?, hget, Option.bind_some, hread]

/-- An option whose value is never written as `null` is read back. -/
theorem optional?_eq {read : Json → Option α} (write : α → Json) {o : Option α}
    (hget : get? key fields = o.map write) (hnull : ∀ a, write a ≠ .null)
    (hread : ∀ a, o = some a → read (write a) = some a) :
    optional? key read fields = some o := by
  rw [optional?, hget]
  cases o with
  | none => rfl
  | some a =>
      rw [Option.map_some]
      split
      · next h => cases h
      · next h => exact absurd (Option.some.inj h) (hnull a)
      · next v h =>
        rw [← Option.some.inj h, hread a rfl, Option.map_some]

end Fields

namespace Json

theorem fieldsHaveWords_append (fields fields' : Fields) :
    fieldsHaveWords (fields ++ fields') = (fieldsHaveWords fields && fieldsHaveWords fields') := by
  induction fields with
  | nil => rw [List.nil_append, fieldsHaveWords, Bool.true_and]
  | cons field rest ih =>
      rw [List.cons_append, fieldsHaveWords, fieldsHaveWords, ih, Bool.and_assoc]

theorem fieldsHaveWords_ofOption (key : String) {o : Option Json}
    (h : ∀ v, o = some v → v.hasWords = true) : fieldsHaveWords (Fields.ofOption key o) = true := by
  cases o with
  | none => rfl
  | some v => simp [Fields.ofOption, fieldsHaveWords, h v rfl]

theorem name?_text {kind : NameKind} (name : Name kind) :
    name? kind (string name.text) = some name := by
  rw [name?, Name.parse_text]
  rfl

/-- A value of which nothing is lost in a text: its numbers are integers, its keys differ. -/
structure Lossless (v : Json) : Prop where
  words : v.hasWords = true
  keys : v.hasDistinctKeys = true

theorem Lossless.any? {v : Json} (h : v.Lossless) : any? v = some v := by
  rw [Json.any?, settle_of_hasDistinctKeys v h.keys]

end Json

/-! ## Envelopes -/

/-- A timestamp that has a text of its own: in a year of four digits, and in no leap second but
one after the last second of a minute. -/
structure Timestamp.Recordable (t : Timestamp) : Prop where
  year : 0 ≤ t.year ∧ t.year ≤ 9999
  leap : t.HasLeap

theorem Timestamp.Recordable.timestamp? {t : Timestamp} (h : t.Recordable) :
    Json.timestamp? (Envelope.instant t) = some t := by
  rw [Envelope.instant, Json.timestamp?, Timestamp.parse_text h.year h.leap]
  rfl

theorem Timestamp.leap_of_timestamp? {v : Json} {t : Timestamp}
    (h : Json.timestamp? v = some t) : t.HasLeap := by
  unfold Json.timestamp? at h
  split at h
  · next text =>
    cases hread : Timestamp.parse text with
    | ok u =>
        rw [hread] at h
        cases h
        exact Timestamp.leap_of_parse hread
    | error e =>
        rw [hread] at h
        cases h
  · cases h

namespace Envelope

/-- The times that are recorded in the envelope. -/
def instants (e : Envelope) : List Timestamp :=
  e.createdAt :: (e.deletedAt.toList ++ e.capturedAt.toList ++ e.persistedAt.toList)

variable {e : Envelope}

theorem keys_toFields : (Fields.keys e.toFields).Sublist fieldNames := by
  simp only [toFields, Fields.keys_append]
  -- each option is left out or stands where its name does
  have hoptions : ∀ (key : String) (o : Option Json) {keys names : List String},
      keys.Sublist names → (keys ++ Fields.keys (Fields.ofOption key o)).Sublist (names ++ [key]) :=
    fun key o _ _ h => h.append (Fields.keys_ofOption key o)
  exact hoptions _ _ (hoptions _ _ (hoptions _ _ (hoptions _ _ (List.Sublist.refl _))))

theorem fieldsHaveWords_toFields (h : e.value.hasWords = true) :
    Json.fieldsHaveWords e.toFields = true := by
  have hoption : ∀ (key : String) {β : Type} (write : β → Json) (o : Option β),
      (∀ b, (write b).hasWords = true) →
        Json.fieldsHaveWords (Fields.ofOption key (o.map write)) = true := by
    intro key β write o hwrite
    apply Json.fieldsHaveWords_ofOption
    intro v hv
    obtain ⟨b, -, rfl⟩ := Option.map_eq_some_iff.mp hv
    exact hwrite b
  have hinstant : ∀ t, (instant t).hasWords = true := fun _ => rfl
  have hstring : ∀ text, (Json.string text).hasWords = true := fun _ => rfl
  rw [toFields, Json.fieldsHaveWords_append, Json.fieldsHaveWords_append,
    Json.fieldsHaveWords_append, Json.fieldsHaveWords_append, hoption _ _ _ hinstant,
    hoption _ _ _ hinstant, hoption _ _ _ hinstant, hoption _ _ _ hstring]
  simp [Json.fieldsHaveWords, hinstant, hstring, h]

/-- The fields of an envelope are read back, whatever other fields stand with them. -/
theorem ofFields?_toFields (blank : Json → Bool) {fields : Fields} (hvalue : e.value.Lossless)
    (hinstants : ∀ t ∈ e.instants, t.Recordable)
    (hfields : ∀ key ∈ fieldNames, Fields.get? key fields = Fields.get? key e.toFields) :
    ofFields? blank fields = some e := by
  have hrequired : ∀ {β : Type} (key : String) (read : Json → Option β) (v : Json) (b : β),
      key ∈ fieldNames → Fields.get? key e.toFields = some v → read v = some b →
        fields.required? key read = some b := by
    intro β key read v b hkey hget hread
    exact Fields.required?_eq ((hfields key hkey).trans hget) hread
  have hinstant : ∀ (key : String) (o : Option Timestamp), key ∈ fieldNames →
      Fields.get? key e.toFields = o.map instant → (∀ t, o = some t → t ∈ e.instants) →
        fields.optional? key Json.timestamp? = some o := by
    intro key o hkey hget hmem
    apply Fields.optional?_eq instant ((hfields key hkey).trans hget)
    · intro t hnull
      cases hnull
    · intro t ht
      exact (hinstants t (hmem t ht)).timestamp?
  have hkind := hrequired "kind" (fun v => (v.word? blank).bind EnvelopeKind.ofWord?) _ e.kind
    (by simp [fieldNames]) rfl (by cases e.kind <;> rfl)
  have hentityType := hrequired "entityTypeName" _ _ _ (by simp [fieldNames]) rfl
    (Json.name?_text e.entityType)
  have hentityId := hrequired "entityID" _ _ _ (by simp [fieldNames]) rfl
    (Json.name?_text e.entityId)
  have htypeName := hrequired "typeName" _ _ _ (by simp [fieldNames]) rfl
    (Json.name?_text e.typeName)
  have hvalue' := hrequired "value" _ _ _ (by simp [fieldNames]) rfl hvalue.any?
  have hcreatedAt := hrequired "createdAt" _ _ _ (by simp [fieldNames]) rfl
    (hinstants e.createdAt List.mem_cons_self).timestamp?
  have hrequestId : fields.optional? "requestID" Json.string? = some e.requestId := by
    apply Fields.optional?_eq Json.string ((hfields "requestID" (by simp [fieldNames])).trans ?_)
    · intro text hnull
      cases hnull
    · exact fun _ _ => rfl
    · simp [toFields, Fields.get?_append, Fields.get?_ofOption, Fields.get?]
  have hdeletedAt := hinstant "deletedAt" e.deletedAt (by simp [fieldNames])
    (by simp [toFields, Fields.get?_append, Fields.get?_ofOption, Fields.get?])
    (fun t ht => by simp [instants, ht])
  have hcapturedAt := hinstant "snapshottedEventCreatedAt" e.capturedAt (by simp [fieldNames])
    (by simp [toFields, Fields.get?_append, Fields.get?_ofOption, Fields.get?])
    (fun t ht => by simp [instants, ht])
  have hpersistedAt := hinstant "persistedAt" e.persistedAt (by simp [fieldNames])
    (by simp [toFields, Fields.get?_append, Fields.get?_ofOption, Fields.get?])
    (fun t ht => by simp [instants, ht])
  rw [ofFields?, hkind, hentityType, hentityId, htypeName, hvalue', hcreatedAt, hrequestId,
    hdeletedAt, hcapturedAt, hpersistedAt]
  rfl

/-- No time of an envelope that was read lies in a leap second but one after the last second of a
minute. -/
theorem leap_of_ofFields? {blank : Json → Bool} {fields : Fields}
    (h : ofFields? blank fields = some e) : ∀ t ∈ e.instants, t.HasLeap := by
  rw [ofFields?] at h
  -- kind, names and value come before the first time
  iterate 5 obtain ⟨_, -, h⟩ := Option.bind_eq_some_iff.mp h
  obtain ⟨createdAt, hcreatedAt, h⟩ := Option.bind_eq_some_iff.mp h
  obtain ⟨requestId, -, h⟩ := Option.bind_eq_some_iff.mp h
  obtain ⟨deletedAt, hdeletedAt, h⟩ := Option.bind_eq_some_iff.mp h
  obtain ⟨capturedAt, hcapturedAt, h⟩ := Option.bind_eq_some_iff.mp h
  obtain ⟨persistedAt, hpersistedAt, h⟩ := Option.bind_eq_some_iff.mp h
  cases h
  have hoptional : ∀ (key : String) (o : Option Timestamp),
      fields.optional? key Json.timestamp? = some o → ∀ t ∈ o.toList, t.HasLeap := by
    intro key o hread t ht
    obtain rfl : o = some t := Option.mem_toList.mp ht
    obtain ⟨v, hv⟩ := Fields.of_optional? hread
    exact Timestamp.leap_of_timestamp? hv
  intro t ht
  simp only [instants, List.mem_cons, List.mem_append] at ht
  rcases ht with rfl | (ht | ht) | ht
  · obtain ⟨v, hv⟩ := Fields.of_required? hcreatedAt
    exact Timestamp.leap_of_timestamp? hv
  · exact hoptional "deletedAt" deletedAt hdeletedAt t ht
  · exact hoptional "snapshottedEventCreatedAt" capturedAt hcapturedAt t ht
  · exact hoptional "persistedAt" persistedAt hpersistedAt t ht

end Envelope

/-- A stored envelope that its line can tell. -/
structure StoredEnvelope.Recordable (s : StoredEnvelope) : Prop where
  value : s.envelope.value.Lossless
  instants : ∀ t ∈ s.envelope.instants, t.Recordable
  depth : s.toJson.depth ≤ Lines.maxDepth

theorem StoredEnvelope.Recordable.ofJson? {s : StoredEnvelope} (h : s.Recordable) :
    StoredEnvelope.ofJson? s.toJson = some s := by
  have hnames : ("id" :: Envelope.fieldNames).Nodup := by decide
  have hkeys : (Fields.keys (("id", .string s.id.text) :: s.envelope.toFields)).Sublist
      ("id" :: Envelope.fieldNames) := Envelope.keys_toFields.cons_cons "id"
  have hid : Fields.required? "id" Json.id?
      (("id", .string s.id.text) :: s.envelope.toFields) = some s.id :=
    Fields.required?_eq rfl (UniqueId.parse?_text s.id)
  -- no field of an envelope has the name of the id
  have hfields : ∀ key ∈ Envelope.fieldNames,
      Fields.get? key (("id", .string s.id.text) :: s.envelope.toFields) =
        Fields.get? key s.envelope.toFields := by
    intro key hkey
    rw [Fields.get?, if_neg]
    rintro rfl
    exact (List.nodup_cons.mp hnames).1 hkey
  have henvelope := Envelope.ofFields?_toFields isBlank h.value h.instants hfields
  rw [StoredEnvelope.ofJson?, toJson, Json.objectRecord?, Fields.known?_of_sublist hnames hkeys]
  simp only [Option.bind_eq_bind, Option.bind_some, hid, henvelope, Option.pure_def]

theorem StoredEnvelope.leap_of_readLine? {line : List Char} {s : StoredEnvelope}
    (h : Lines.readLine? .envelopes line = some s) : ∀ t ∈ s.envelope.instants, t.HasLeap := by
  obtain ⟨v, -, hdecode⟩ := Option.bind_eq_some_iff.mp h
  split at hdecode
  · have hrecord : StoredEnvelope.ofJson? v = some s := hdecode
    obtain ⟨fields, -, hrecord⟩ := Option.bind_eq_some_iff.mp hrecord
    obtain ⟨id, -, hrecord⟩ := Option.bind_eq_some_iff.mp hrecord
    obtain ⟨e, henvelope, hrecord⟩ := Option.bind_eq_some_iff.mp hrecord
    cases hrecord
    exact Envelope.leap_of_ofFields? henvelope
  · cases hdecode

/-! ## Read models -/

/-- A stored read model that its line can tell. -/
structure StoredReadModel.Recordable (s : StoredReadModel) : Prop where
  value : s.readModel.value.Lossless
  depth : s.toJson.depth ≤ Lines.maxDepth

theorem ReadModel.ofJson?_toJson {m : ReadModel} (h : m.value.Lossless) :
    ReadModel.ofJson? m.toJson = some m := by
  have hnames : fieldNames.Nodup := by decide
  have hknown : Fields.known? fieldNames [("typeName", .string m.typeName.text),
      ("id", .string m.id.text), ("value", m.value)] = some _ :=
    Fields.known?_of_sublist hnames (List.Sublist.refl _)
  have htypeName := Json.name?_text m.typeName
  have hid := Json.name?_text m.id
  rw [ReadModel.ofJson?, toJson, Json.record?, hknown]
  simp [Fields.required?, Fields.get?, htypeName, hid, h.any?]

theorem StoredReadModel.ofJson?_toJson {s : StoredReadModel} (h : s.readModel.value.Lossless) :
    StoredReadModel.ofJson? s.toJson = some s := by
  have hnames : fieldNames.Nodup := by decide
  have hknown : Fields.known? fieldNames [("uniqueKey", .string s.uniqueKey),
      ("envelope", s.readModel.toJson)] = some _ :=
    Fields.known?_of_sublist hnames (List.Sublist.refl _)
  have hmodel := ReadModel.ofJson?_toJson h
  rw [StoredReadModel.ofJson?, toJson, Json.record?, hknown]
  simp [Fields.required?, Fields.get?, Json.string?, hmodel]

/-! ## Lines -/

namespace RecordFormat

variable {α : Type} {format : RecordFormat α}

/-- A record is read back from its line if it is read from its value, and all of that is kept. -/
theorem reread?_eq {r : α} (hwords : (format.encode r).hasWords = true)
    (hcovered : (format.encode r).isCovered format.shape = true)
    (hdepth : (format.encode r).depth ≤ Lines.maxDepth)
    (hdecode : format.decode? (format.encode r) = some r) : format.reread? r = some r := by
  rw [reread?, Lines.readLine?, Json.readAs?_spell hwords hcovered]
  simp only [Option.bind_eq_bind, Option.bind_some, if_pos hdepth, hdecode]

/-- An envelope is read back from its line. -/
theorem reread?_envelopes {s : StoredEnvelope} (h : s.Recordable) :
    envelopes.reread? s = some s := by
  apply reread?_eq
  · have hfields := Envelope.fieldsHaveWords_toFields h.value.words
    show Json.fieldsHaveWords (("id", .string s.id.text) :: s.envelope.toFields) = true
    rw [Json.fieldsHaveWords, hfields]
    rfl
  · exact Json.isCovered_any _
  · exact h.depth
  · exact h.ofJson?

/-- A read model is read back from its line. -/
theorem reread?_readModels {s : StoredReadModel} (h : s.Recordable) :
    readModels.reread? s = some s := by
  apply reread?_eq
  · show s.toJson.hasWords = true
    simp [StoredReadModel.toJson, ReadModel.toJson, Json.hasWords, Json.fieldsHaveWords,
      h.value.words]
  -- the fields of the record are kept, and all of each
  · have hany := Json.isCovered_any s.readModel.value
    show s.toJson.isCovered StoredReadModel.shape = true
    simp [StoredReadModel.toJson, StoredReadModel.shape, ReadModel.toJson, ReadModel.shape,
      ReadModel.fieldNames, Json.isCovered, Json.fieldsAreCovered, Json.Shape.field, hany]
  · exact h.depth
  · exact StoredReadModel.ofJson?_toJson h.value

theorem visible_readModels : readModels.Visible := fun _ => rfl

end RecordFormat

end Chronicle
