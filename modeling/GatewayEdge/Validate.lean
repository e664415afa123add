import GatewayEdge.Foundation.Text

/-!
# Validate — per-route body policy

Size caps, the JSON content type and required top-level members with primitive types.  The JSON
parser is a parameter; a parsed value is a `Json`.
-/

namespace GatewayEdge

open Foundation

/-- A parsed JSON value; numbers keep their text. -/
inductive Json
  | null
  | bool (b : Bool)
  | number (text : String)
  | string (s : String)
  | array (items : List Json)
  | object (members : List (String × Json))

namespace Json

def isObject : Json → Bool
  | .object _ => true
  | _ => false

/-- `Value::get` with a string index. -/
def get : Json → String → Option Json
  | .object members, field => members.lookup field
  | _, _ => none

end Json

inductive FieldType
  | string
  | number
  | boolean
  | object
  | array
  deriving DecidableEq, Repr

/-- `FieldType::matches`. -/
def FieldType.accepts : FieldType → Json → Bool
  | .string, .string _ => true
  | .number, .number _ => true
  | .boolean, .bool _ => true
  | .object, .object _ => true
  | .array, .array _ => true
  | _, _ => false

def typeName : FieldType → String
  | .string => "a string"
  | .number => "a number"
  | .boolean => "a boolean"
  | .object => "an object"
  | .array => "an array"

structure RequiredField where
  field : String
  type : FieldType
  deriving DecidableEq, Repr

structure ValidationConfig where
  maxBodyBytes : Option Nat := none
  requireJson : Bool := false
  required : List RequiredField := []
  deriving DecidableEq, Repr

inductive Violation
  | tooLarge (actual limit : Nat)
  | notJson
  | missingField (field : String)
  | wrongType (field expected : String)
  deriving DecidableEq, Repr

/-- HTTP status and machine-readable reason. -/
def Violation.response : Violation → Nat × String
  | .tooLarge _ limit => (413, s!"body exceeds {limit} bytes")
  | .notJson => (415, "content-type must be application/json")
  | .missingField f => (400, s!"missing field '{f}'")
  | .wrongType field expected => (400, s!"field '{field}' must be {expected}")

/-- The loop over `cfg.required`. -/
def checkRequired (parsed : Json) : List RequiredField → Except Violation Unit
  | [] => .ok ()
  | req :: rest =>
    match parsed.get req.field with
    | none => .error (.missingField req.field)
    -- A member that is `null` counts as missing.
    | some .null => .error (.missingField req.field)
    | some v =>
      if req.type.accepts v then checkRequired parsed rest
      else .error (.wrongType req.field (typeName req.type))

/-- `validate_body`. -/
def validateBody (parseJson : String → Option Json) (cfg : ValidationConfig)
    (contentType body : String) : Except Violation Unit :=
  match cfg.maxBodyBytes.filter (· < body.utf8ByteSize) with
  | some limit => .error (.tooLarge body.utf8ByteSize limit)
  | none =>
    let trimmed := trim body
    -- A blank body passes whatever else the policy asks for.
    if trimmed.isEmpty then .ok ()
    else if cfg.requireJson
        && !startsWith (String.ofList ((trim contentType).toList.map Char.toLower))
          "application/json" then
      .error .notJson
    else if cfg.required.isEmpty then .ok ()
    else
      match parseJson trimmed with
      | none => .error .notJson
      | some parsed =>
        if parsed.isObject then checkRequired parsed cfg.required else .error .notJson

/-- Every rejection maps to a client error. -/
theorem Violation.response_status (v : Violation) :
    400 ≤ v.response.1 ∧ v.response.1 < 500 := by
  cases v <;> simp [Violation.response]

end GatewayEdge
