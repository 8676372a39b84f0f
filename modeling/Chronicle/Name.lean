import Chronicle.Text.Blank

set_option autoImplicit false

/-!
# Names

The names that records carry: entity types and ids, event types, read model types and ids, and
the names of collection files. A name is read from text by trimming it; it is not empty and has
at most 255 characters, and the name of a collection file is a bare file name. Main statement:
a name's own text is read back as that name.
-/

namespace Chronicle

/-- What a name stands for. -/
inductive NameKind
  | entityType
  | entityId
  | eventType
  | readModelType
  | readModelId
  | collectionFile
deriving DecidableEq

namespace NameKind

/-- The word by which messages call a name of this kind. -/
def label : NameKind → String
  | entityType => "EntityTypeName"
  | entityId => "EntityId"
  | eventType => "EventTypeName"
  | readModelType => "ReadModelTypeName"
  | readModelId => "ReadModelId"
  | collectionFile => "CollectionFileName"

/-- A collection file is named without path separators and is no directory link. -/
def allows : NameKind → String → Bool
  | collectionFile, text =>
      !text.toList.any (fun c => c == '/' || c == '\\') && text != "." && text != ".."
  | _, _ => true

end NameKind

/-- What is wrong with the text of a name. -/
inductive NameFault
  | empty
  | tooLong
  | refused
deriving DecidableEq

/-- A text that is no name of its kind, and why. -/
structure NameError where
  kind : NameKind
  fault : NameFault
deriving DecidableEq

/-- The most characters a name may have. -/
def Name.maxLength : Nat := 255

/-- The error in words. -/
def NameError.message (e : NameError) : String :=
  match e.fault with
  | .empty => e.kind.label ++ " is empty."
  | .tooLong => e.kind.label ++ " is too long: the maximum valid length is 255 characters."
  | .refused => e.kind.label ++ " failed the predicate test."

/-- The text is trimmed, not empty, not too long, and of the form its kind asks for. -/
structure Name.Admissible (kind : NameKind) (text : String) : Prop where
  trimmed : Text.trim text.toList = text.toList
  nonempty : text ≠ ""
  length_le : text.length ≤ Name.maxLength
  allowed : kind.allows text = true

/-- A name of the given kind. -/
structure Name (kind : NameKind) where
  text : String
  admissible : Name.Admissible kind text
deriving DecidableEq

abbrev EntityTypeName := Name .entityType
abbrev EntityId := Name .entityId
abbrev EventTypeName := Name .eventType
abbrev ReadModelTypeName := Name .readModelType
abbrev ReadModelId := Name .readModelId
abbrev CollectionFileName := Name .collectionFile

namespace Name

variable {kind : NameKind}

/-- Reads a name: the text is trimmed and then checked for emptiness, length and form. -/
def parse (kind : NameKind) (raw : String) : Except NameError (Name kind) :=
  let text := String.ofList (Text.trim raw.toList)
  if h₀ : text = "" then .error ⟨kind, .empty⟩
  else if h₁ : maxLength < text.length then .error ⟨kind, .tooLong⟩
  else if h₂ : kind.allows text = true then
    .ok ⟨text, by simp [text, Text.trim_trim], h₀, Nat.le_of_not_lt h₁, h₂⟩
  else .error ⟨kind, .refused⟩

/-- Names are ordered by their characters. -/
instance : Ord (Name kind) := ⟨fun a b => compare a.text b.text⟩

/-- A name is given by its text. -/
theorem ext_text {a b : Name kind} (h : a.text = b.text) : a = b := by
  cases a; cases b; cases h; rfl

instance : Std.LawfulEqOrd (Name kind) where
  compare_self {a} := Std.ReflOrd.compare_self (a := a.text)
  eq_of_compare h := ext_text (Std.LawfulEqOrd.eq_of_compare h)

instance : Std.TransOrd (Name kind) where
  eq_swap {a b} := Std.OrientedOrd.eq_swap (a := a.text) (b := b.text)
  isLE_trans {a b c} hab hbc :=
    Std.TransOrd.isLE_trans (a := a.text) (b := b.text) (c := c.text) hab hbc

/-- The text of a name is read back as that name. -/
theorem parse_text (n : Name kind) : parse kind n.text = .ok n := by
  obtain ⟨text, trimmed, nonempty, length_le, allowed⟩ := n
  have h : String.ofList (Text.trim text.toList) = text := by rw [trimmed, String.ofList_toList]
  simp only [parse, h]
  rw [dif_neg nonempty, dif_neg (Nat.not_lt.mpr length_le), dif_pos allowed]

end Name

end Chronicle
