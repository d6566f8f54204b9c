import Mathlib.Data.Char
import Mathlib.Data.List.Lex
import VpnHide.Lib.SortedMap
import VpnHide.Lib.Str

/-!
# JSON values

The values of a JSON text. The fields of an object are kept sorted by name, each name once:
`put` writes one, and `lookup` finds what was written last (`lookup_put`).

The conversion of values to text and back is a parameter (`JsonText`). It is *faithful* on a
value whose text is read back as that value.
-/

namespace VpnHide.Lib

/-- The numbers of a JSON text: those that fit an unsigned or else a signed word are exact,
    others are floats, here by their bits. -/
inductive JsonNumber
  | posInt (n : UInt64)
  | negInt (n : Int64)
  | float (bits : UInt64)
  deriving DecidableEq

/-- A JSON value; the fields of an object keep their order. -/
inductive Json
  | null
  | bool (b : Bool)
  | number (n : JsonNumber)
  | string (s : Str)
  | array (items : List Json)
  | object (fields : List (Str × Json))

namespace Json

/-- Writing a field of an object. -/
def put (fields : List (Str × Json)) (name : Str) (value : Json) : List (Str × Json) :=
  upsert Prod.fst (name, value) fields

/-- The field of an object with a name. -/
def lookup (fields : List (Str × Json)) (name : Str) : Option Json :=
  (fields.find? fun field => field.1 = name).map (·.2)

/-- The field of a value with a name; only objects have fields. -/
def get (v : Json) (name : Str) : Option Json :=
  match v with
  | object fields => lookup fields name
  | _ => none

/-- A boolean. -/
def asBool : Json → Option Bool
  | bool b => some b
  | _ => none

/-- A number that fits 64 bits. -/
def asU64 : Json → Option UInt64
  | number (.posInt n) => some n
  | _ => none

/-- A string. -/
def asStr : Json → Option Str
  | string s => some s
  | _ => none

/-- An array. -/
def asArray : Json → Option (List Json)
  | array items => some items
  | _ => none

/-- An object. -/
def asObject : Json → Option (List (Str × Json))
  | object fields => some fields
  | _ => none

/-- It is a boolean. -/
def isBoolean (v : Json) : Bool := v.asBool.isSome

/-- It is a string. -/
def isString (v : Json) : Bool := v.asStr.isSome

/-- It is an object. -/
def isObject (v : Json) : Bool := v.asObject.isSome

/-- It is `null`. -/
def isNull : Json → Bool
  | null => true
  | _ => false

@[simp]
theorem lookup_nil (name : Str) : lookup [] name = none := rfl

/-- A field that was put is found, and no other is changed. -/
@[simp]
theorem lookup_put (fields : List (Str × Json)) (name name' : Str) (value : Json) :
    lookup (put fields name value) name' = if name = name' then some value
      else lookup fields name' := by
  have h : (put fields name value).find? (fun field => field.1 = name') =
      if name = name' then some (name, value) else fields.find? fun field => field.1 = name' := by
    rw [put]
    convert @find?_upsert _ _ _ Prod.fst (name, value) fields name'
  rw [lookup, h]
  split_ifs <;> rfl

@[simp]
theorem get_object (fields : List (Str × Json)) (name : Str) :
    (object fields).get name = lookup fields name := rfl

@[simp]
theorem asBool_bool (b : Bool) : (bool b).asBool = some b := rfl

@[simp]
theorem asStr_string (s : Str) : (string s).asStr = some s := rfl

@[simp]
theorem asArray_array (items : List Json) : (array items).asArray = some items := rfl

@[simp]
theorem asObject_object (fields : List (Str × Json)) : (object fields).asObject = some fields := rfl

@[simp]
theorem asU64_posInt (n : UInt64) : (number (.posInt n)).asU64 = some n := rfl

end Json

/-- Writing values as text, and reading them. -/
structure JsonText where
  toString : Json → Str
  fromStr : Str → Except Str Json

/-- The text of a value is not blank, and is read back as that value. -/
structure JsonText.Faithful (text : JsonText) (v : Json) : Prop where
  nonblank : Str.trim (text.toString v) ≠ []
  readBack : text.fromStr (text.toString v) = .ok v

end VpnHide.Lib
