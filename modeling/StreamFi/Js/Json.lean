import StreamFi.Js.Value

/-!
# JSON documents

A JSON text is kept by the document that it denotes; the names of an object differ.

* `Json.field`, `Json.typeName`, `Json.text`: a property, `typeof x` and `String(x)`;
* `Json.written`: what `JSON.parse` reads of the text that `JSON.stringify` writes.
-/

namespace Js

inductive Json where
  | null
  | bool (b : Bool)
  | number (x : Number)
  | string (s : String)
  | array (items : List Json)
  | object (fields : List (String × Json))

namespace Json

/-- `x.name`, if there is such a property. -/
def field (name : String) : Json → Option Json
  | .object fields => (fields.find? fun p => p.1 = name).map Prod.snd
  | _ => none

def typeName : Json → String
  | .bool _ => "boolean"
  | .number _ => "number"
  | .string _ => "string"
  | .null | .array _ | .object _ => "object"

mutual

/-- `String(x)`. -/
def text : Json → String
  | .null => "null"
  | .bool b => toString b
  | .number x => numToText x
  | .string s => s
  | .array items => ",".intercalate (elementTexts items)
  | .object _ => "[object Object]"

/-- The elements that `join` puts together: a `null` has no text. -/
def elementTexts : List Json → List String
  | [] => []
  | .null :: items => "" :: elementTexts items
  | item :: items => item.text :: elementTexts items

end

mutual

/-- Numbers that are not finite are written as `null`. -/
def written : Json → Json
  | .number x => if x.isFinite then .number x else .null
  | .array items => .array (writtenItems items)
  | .object fields => .object (writtenFields fields)
  | x => x

def writtenItems : List Json → List Json
  | [] => []
  | item :: items => item.written :: writtenItems items

def writtenFields : List (String × Json) → List (String × Json)
  | [] => []
  | (name, value) :: fields => (name, value.written) :: writtenFields fields

end

theorem writtenItems_eq (items : List Json) : writtenItems items = items.map written := by
  induction items with
  | nil => rfl
  | cons item items ih => rw [writtenItems, ih, List.map_cons]

end Json

end Js
