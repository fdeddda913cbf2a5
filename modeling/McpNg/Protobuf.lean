import McpNg.Python
import Mathlib.Data.List.Nodup

/-!
# The protobuf messages of the tool service

`Run` reads its argument from a `google.protobuf.Struct` and answers with an
`mcp_pb2.ToolRunResponse` whose `result` is a `google.protobuf.Value` built by
`json_format.ParseDict`. This module models those messages and that conversion.

A protobuf string is UTF-8, so the type of a string field, `PbStr`, carries the proof that
its text encodes: a field value holding a lone surrogate cannot be built. Assigning a
Python `str` to a string field is therefore partial (`PbStr.ofPy`), and that is where the
runtime raises. `ToolCallResult` is the spec's result envelope (exactly one of a value and
a non-empty error); `ToolRunResponse.exactlyOne_iff` says which responses are envelopes.
-/

namespace McpNg

/-! ## String fields -/

/-- The value of a protobuf `string` field: text UTF-8 can encode. -/
structure PbStr where
  val : PyStr
  encodable : val.Encodable
  deriving DecidableEq

/-- The default of a string field, `""`. -/
def PbStr.empty : PbStr := ⟨[], PyStr.encodable_nil⟩

/-- A literal as a string field value. -/
def PbStr.ofString (s : String) : PbStr := ⟨s, PyStr.encodable_ofString s⟩

/-- What the runtime raises when a `str` holding a surrogate is assigned to a string
field or map key (under the default upb runtime a `UnicodeEncodeError`, message shortened
to its reason). -/
def encodeError : PyExc :=
  .builtin "UnicodeEncodeError" "surrogates not allowed"

/-- Assigning the Python `str` `s` to a string field. -/
def PbStr.ofPy (s : PyStr) : Except PyExc PbStr :=
  if h : s.Encodable then .ok ⟨s, h⟩ else .error encodeError

theorem PbStr.ofPy_of_encodable {s : PyStr} (h : s.Encodable) : PbStr.ofPy s = .ok ⟨s, h⟩ :=
  dif_pos h

theorem PbStr.ofPy_of_not_encodable {s : PyStr} (h : ¬ s.Encodable) :
    PbStr.ofPy s = .error encodeError :=
  dif_neg h

/-! ## `google.protobuf.Value` and `Struct` -/

/-- `google.protobuf.Value`: its `kind` oneof, or no kind set (`Value()`). A number is
kept as the bits of its IEEE double. -/
inductive Value where
  | kindNotSet
  | nullValue
  | numberValue (bits : UInt64)
  | stringValue (s : PbStr)
  | boolValue (b : Bool)
  | structValue (fields : List (PbStr × Value))
  | listValue (values : List Value)

/-- The attribute `v.string_value`: the text when `kind` is `string_value`, else the
field's default `""`. -/
def Value.getStringValue : Value → PyStr
  | .stringValue s => s.val
  | _ => []

/-- The lookup behind `v.struct_value.fields[key]`: a key that is absent, or a `v` that
holds no struct, reads as a default `Value()`. -/
def Value.structField (v : Value) (key : PyStr) : Value :=
  match v with
  | .structValue fields => ((fields.find? (·.1.val = key)).map (·.2)).getD .kindNotSet
  | _ => .kindNotSet

/-- A `google.protobuf.Struct`: a map from string keys to values, keys distinct. -/
structure Struct where
  fields : List (PbStr × Value)
  keys_nodup : (fields.map (·.1)).Nodup

/-- `s.fields.get(key)`: the value under `key`, `None` when the key is absent. -/
def Struct.get (s : Struct) (key : PyStr) : Option Value :=
  (s.fields.find? (·.1.val = key)).map (·.2)

/-! ## `json_format.ParseDict` into a `Value` -/

/-- The Python values handed to `ParseDict` here: `None`, `bool`, `str`, `list`, and
`dict` with `str` keys (its items in iteration order). -/
inductive PyObj where
  | none
  | bool (b : Bool)
  | str (s : PyStr)
  | list (xs : List PyObj)
  | dict (items : List (PyStr × PyObj))

mutual

/-- `_Parser._ConvertValueMessage(value, message)`. -/
def convertValue : PyObj → Except PyExc Value
  | .dict items => .structValue <$> convertStruct items
  | .list xs => .listValue <$> convertList xs
  | .none => pure .nullValue
  | .bool b => pure (.boolValue b)
  | .str s => .stringValue <$> PbStr.ofPy s

/-- The loop of `_ConvertStructMessage`: `message.fields[key]` (the key is assigned
first), then the value converted into it. -/
def convertStruct : List (PyStr × PyObj) → Except PyExc (List (PbStr × Value))
  | [] => pure []
  | (key, value) :: items => do
    let k ← PbStr.ofPy key
    let v ← convertValue value
    let rest ← convertStruct items
    pure ((k, v) :: rest)

/-- The loop of `_ConvertListValueMessage`. -/
def convertList : List PyObj → Except PyExc (List Value)
  | [] => pure []
  | x :: xs => do
    let v ← convertValue x
    let rest ← convertList xs
    pure (v :: rest)

end

/-- `ParseDict(js, Value())`. -/
def parseDict (js : PyObj) : Except PyExc Value :=
  convertValue js

/-- A one-entry dict `{key: text}` becomes a struct holding `text` as a string, or raises
when either string cannot be encoded. -/
theorem parseDict_singleton (key text : PyStr) :
    parseDict (.dict [(key, .str text)]) =
      (do
        let k ← PbStr.ofPy key
        let v ← PbStr.ofPy text
        pure (.structValue [(k, .stringValue v)])) := by
  simp only [parseDict, convertValue, convertStruct]
  cases PbStr.ofPy key <;> cases PbStr.ofPy text <;> rfl

/-! ## `ToolRunResponse` and the result envelope -/

/-- Modelled from the spec: `mcp.proto`'s `ToolRunResponse` is not in the repository;
its two fields as server.py uses them: the message field `result`, absent until set, and
the string field `error`, `""` when unset. -/
structure ToolRunResponse where
  result : Option Value := none
  error : PbStr := PbStr.empty

/-- The spec's result envelope (`ToolCallResult`): a value, or a non-empty error. -/
inductive ToolCallResult where
  | value (v : Value)
  | error (msg : PbStr) (nonempty : msg.val ≠ [])

/-- The response that carries an envelope. -/
def ToolCallResult.toResponse : ToolCallResult → ToolRunResponse
  | .value v => { result := some v }
  | .error msg _ => { error := msg }

/-- Exactly one of `result` and a non-empty `error` is set: never both, never neither. -/
def ToolRunResponse.ExactlyOne (r : ToolRunResponse) : Prop :=
  (r.result.isSome ∧ r.error.val = []) ∨ (r.result = none ∧ r.error.val ≠ [])

/-- The responses with exactly one field set are exactly those carrying an envelope. -/
theorem ToolRunResponse.exactlyOne_iff (r : ToolRunResponse) :
    r.ExactlyOne ↔ ∃ c : ToolCallResult, c.toResponse = r := by
  rcases r with ⟨_ | v, ⟨e, he⟩⟩
  · constructor
    · rintro (⟨h, -⟩ | ⟨-, h⟩)
      · cases h
      · exact ⟨.error ⟨e, he⟩ h, rfl⟩
    · rintro ⟨_ | ⟨m, hm⟩, h⟩ <;> cases h
      exact .inr ⟨rfl, hm⟩
  · constructor
    · rintro (⟨-, h⟩ | ⟨h, -⟩)
      · subst h
        exact ⟨.value v, rfl⟩
      · cases h
    · rintro ⟨_ | ⟨m, hm⟩, h⟩ <;> cases h
      exact .inl ⟨rfl, rfl⟩

end McpNg
