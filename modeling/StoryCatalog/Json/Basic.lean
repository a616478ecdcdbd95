import StoryCatalog.Fields
import StoryCatalog.Number.Basic

/-!
# JSON values

The values of JSON documents and of everything that is read from story files. Objects keep the
order of their keys. Numbers are integers of any size or binary64 numbers, infinities and NaN
included.
-/

namespace StoryCatalog

/-- A JSON value. -/
inductive Json where
  | null
  | bool (b : Bool)
  | number (n : Number)
  | string (t : Text)
  | array (items : List Json)
  | object (fields : List (Text × Json))
  deriving Inhabited

namespace Json

/-- The integer as a value. -/
def int (n : Int) : Json := .number (.int n)

/-- The count as a value. -/
def nat (n : Nat) : Json := .number (.int n)

/-- The object's value under a key; `null` if there is none or the value is no object. -/
def field (value : Json) (key : Text) : Json :=
  match value with
  | .object fields => (Fields.get? fields key).getD .null
  | _ => .null

/-- The value at the end of a path of keys through objects; `null` where the path breaks off. -/
def follow (value : Json) (path : List Text) : Json := path.foldl field value

/-- The fields of an object, none for other values. -/
def fields : Json → Fields Json
  | .object fields => fields
  | _ => []

/-- Whether a value is an object. -/
def isObject : Json → Bool
  | .object _ => true
  | _ => false

/-- Whether a value is `null`. -/
def isNull : Json → Bool
  | .null => true
  | _ => false

/-- The text of a string value, the empty text for others. -/
def textOrEmpty : Json → Text
  | .string t => t
  | _ => []

/-- Whether a value counts as present: not `null`, `false`, a zero, or an empty text, array or
object. -/
def isTruthy : Json → Bool
  | .null => false
  | .bool b => b
  | .number n => !n.isZero
  | .string t => !t.isEmpty
  | .array items => !items.isEmpty
  | .object fields => !fields.isEmpty

end Json

end StoryCatalog
