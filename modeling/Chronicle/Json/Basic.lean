import Chronicle.Decimal.Binary64
import Chronicle.Word

set_option autoImplicit false

/-!
# JSON values

Values with ordered object fields and with integers kept apart from floats. Main definitions:
the fields of an object as an insertion-ordered map, and structural equality, which ignores the
order of object keys.
-/

namespace Chronicle

/-- A number: an integer of 64 bits, signed or unsigned, or a finite float. -/
inductive Number
  | int (value : Int)
  | float (value : Binary64)
deriving DecidableEq

namespace Number

/-- Same kind and same value; the two float zeros are the same. -/
def same : Number → Number → Bool
  | int a, int b => a == b
  | float a, float b => a.compare b == .eq
  | _, _ => false

/-- The float nearest to the number. -/
def toBinary64 : Number → Binary64
  | int n => .ofInt n
  | float x => x

/-- The least integer of 64 signed bits. -/
def minSigned : Int := -(Word.limit 63 : Nat)

/-- One more than the greatest integer of 64 signed bits. -/
def signedLimit : Int := (Word.limit 63 : Nat)

/-- One more than the greatest integer of 64 unsigned bits. -/
def unsignedLimit : Int := (Word.limit 64 : Nat)

/-- The number as an integer of 64 signed bits. -/
def signed? : Number → Option Int
  | int n => if minSigned ≤ n ∧ n < signedLimit then some n else none
  | float _ => none

/-- The number as an integer of 64 unsigned bits. -/
def unsigned? : Number → Option Nat
  | int n => if 0 ≤ n ∧ n < unsignedLimit then some n.toNat else none
  | float _ => none

/--
Numeric order: two integers that are both signed or both unsigned compare exactly, all other
pairs as floats.
-/
def compare (a b : Number) : Ordering :=
  match a.signed?, b.signed? with
  | some m, some n => Ord.compare m n
  | _, _ =>
      match a.unsigned?, b.unsigned? with
      | some m, some n => Ord.compare m n
      | _, _ => a.toBinary64.compare b.toBinary64

end Number

/-- A JSON value; the fields of an object keep their order. -/
inductive Json
  | null
  | bool (value : Bool)
  | number (value : Number)
  | string (text : String)
  | array (items : List Json)
  | object (fields : List (String × Json))
deriving Inhabited

/-- The fields of an object, in insertion order. -/
abbrev Fields := List (String × Json)

namespace Fields

/-- The value under `key`. -/
def get? (key : String) : Fields → Option Json
  | [] => none
  | (k, v) :: rest => if k = key then some v else get? key rest

/-- Puts `value` under `key`: an old key keeps its place, a new one comes last. -/
def set (key : String) (value : Json) : Fields → Fields
  | [] => [(key, value)]
  | (k, v) :: rest => if k = key then (k, value) :: rest else (k, v) :: set key value rest

/-- The keys in order. -/
def keys (fields : Fields) : List String := fields.map Prod.fst

end Fields

namespace Json

/-- An integer value. -/
def ofInt (n : Int) : Json := number (.int n)

/-- An integer value that is not negative. -/
def ofNat (n : Nat) : Json := number (.int n)

/-- The object without fields. -/
def emptyObject : Json := object []

/-- The value of a field, if the value is an object that has it. -/
def get? (key : String) : Json → Option Json
  | object fields => Fields.get? key fields
  | _ => none

/-- The text of a string. -/
def string? : Json → Option String
  | string text => some text
  | _ => none

/-- The value of an integer of 64 unsigned bits. -/
def unsigned? : Json → Option Nat
  | number n => n.unsigned?
  | _ => none

/-- Whether the value is `null`. -/
def isNull : Json → Bool
  | null => true
  | _ => false

/-- Whether the value is an object. -/
def isObject : Json → Bool
  | object _ => true
  | _ => false

mutual

/-- Structural equality: integers and floats are kept apart, the order of keys is ignored. -/
def same : Json → Json → Bool
  | null, null => true
  | bool a, bool b => a == b
  | number a, number b => a.same b
  | string a, string b => a == b
  | array as, array bs => sameItems as bs
  | object as, object bs => as.length == bs.length && fieldsWithin as bs
  | _, _ => false

/-- Lists of equal length with structurally equal elements. -/
def sameItems : List Json → List Json → Bool
  | [], [] => true
  | a :: as, b :: bs => same a b && sameItems as bs
  | _, _ => false

/-- Every field of the first list stands in the second with an equal value. -/
def fieldsWithin : List (String × Json) → List (String × Json) → Bool
  | [], _ => true
  | (key, a) :: as, bs =>
      (match Fields.get? key bs with
        | some b => same a b
        | none => false) && fieldsWithin as bs

end

mutual

/-- How deep arrays and objects are nested in the value. -/
def depth : Json → Nat
  | array items => depthOfItems items + 1
  | object fields => depthOfFields fields + 1
  | _ => 0

/-- The greatest depth among the items. -/
def depthOfItems : List Json → Nat
  | [] => 0
  | v :: rest => max (depth v) (depthOfItems rest)

/-- The greatest depth among the fields' values. -/
def depthOfFields : List (String × Json) → Nat
  | [] => 0
  | (_, v) :: rest => max (depth v) (depthOfFields rest)

end

mutual

/-- The value with repeated keys merged: a key keeps its first place and its last value. -/
def settle : Json → Json
  | array items => array (settleItems items)
  | object fields => object (settleFields [] fields)
  | v => v

/-- Settles each item. -/
def settleItems : List Json → List Json
  | [] => []
  | v :: rest => settle v :: settleItems rest

/-- Settles each field and puts it into the fields so far. -/
def settleFields (sofar : Fields) : List (String × Json) → Fields
  | [] => sofar
  | (key, v) :: rest => settleFields (sofar.set key (settle v)) rest

end

end Json

end Chronicle
