/-
Problem details and their JSON form (`summer-web/src/problem_details.rs`).

An object is the list of its members in the order in which they are written, so that one key
can occur twice.  The flattened map is written in the order of an iteration over it.
-/
import Mathlib.Data.Finmap

namespace Summer.Web

inductive Json
  | null
  | bool (b : Bool)
  | number (n : Int)
  | float (text : String)
  | string (s : String)
  | array (items : List Json)
  | object (members : List (String × Json))

abbrev Members := List (String × Json)

/-- A `HashMap<String, serde_json::Value>`. -/
abbrev Extensions := Finmap fun _ : String => Json

/-- The entries of a map, in an order in which it can be iterated over. -/
structure Iteration (extensions : Extensions) where
  entries : AList fun _ : String => Json
  complete : entries.toFinmap = extensions

inductive ViolationLocation
  | body
  | query
  | path
deriving DecidableEq, Repr

structure Violation where
  field : String
  location : ViolationLocation
  message : String
deriving DecidableEq, Repr

namespace Violation

def body (field message : String) : Violation := ⟨field, .body, message⟩

def query (field message : String) : Violation := ⟨field, .query, message⟩

def path (field message : String) : Violation := ⟨field, .path, message⟩

end Violation

structure ProblemDetails where
  problemType : String
  title : String
  status : UInt16
  detail : Option String
  «instance» : Option String
  violations : List Violation
  extensions : Extensions

namespace ProblemDetails

/-! ## Constructors and builders -/

def new (problemType title : String) (status : UInt16) : ProblemDetails :=
  { problemType := problemType, title := title, status := status, detail := none,
    «instance» := none, violations := [], extensions := ∅ }

def withDetail (p : ProblemDetails) (detail : String) : ProblemDetails :=
  { p with detail := some detail }

def withInstance (p : ProblemDetails) (uri : String) : ProblemDetails :=
  { p with «instance» := some uri }

def withExtension (p : ProblemDetails) (key : String) (value : Json) : ProblemDetails :=
  { p with extensions := p.extensions.insert key value }

def withViolation (p : ProblemDetails) (field : String) (location : ViolationLocation)
    (message : String) : ProblemDetails :=
  { p with violations := p.violations ++ [⟨field, location, message⟩] }

def withViolations (p : ProblemDetails) (violations : List Violation) : ProblemDetails :=
  { p with violations := p.violations ++ violations }

def validationError (detail : String) : ProblemDetails :=
  (new "about:blank" "Validation Error" 400).withDetail detail

def authenticationError : ProblemDetails :=
  (new "about:blank" "Authentication Required" 401).withDetail
    "Authentication credentials are required to access this resource"

def authorizationError : ProblemDetails :=
  (new "about:blank" "Insufficient Permissions" 403).withDetail
    "You don't have permission to access this resource"

def notFound (resource : String) : ProblemDetails :=
  (new "about:blank" "Resource Not Found" 404).withDetail
    ("The requested " ++ resource ++ " was not found")

def internalServerError : ProblemDetails :=
  (new "about:blank" "Internal Server Error" 500).withDetail
    "An unexpected error occurred while processing your request"

def serviceUnavailable : ProblemDetails :=
  (new "about:blank" "Service Unavailable" 503).withDetail
    "The service is temporarily unavailable"

/-- What a program can make of the constructors and builders. -/
inductive Reachable : ProblemDetails → Prop
  | new (problemType title : String) (status : UInt16) : Reachable (new problemType title status)
  | withDetail {p : ProblemDetails} (detail : String) :
      Reachable p → Reachable (p.withDetail detail)
  | withInstance {p : ProblemDetails} (uri : String) : Reachable p → Reachable (p.withInstance uri)
  | withExtension {p : ProblemDetails} (key : String) (value : Json) : Reachable p →
      Reachable (p.withExtension key value)
  | withViolation {p : ProblemDetails} (field : String) (location : ViolationLocation)
      (message : String) : Reachable p → Reachable (p.withViolation field location message)
  | withViolations {p : ProblemDetails} (violations : List Violation) : Reachable p →
      Reachable (p.withViolations violations)

/-! ## The response -/

/-- `StatusCode::from_u16` accepts the codes of three digits. -/
def statusCode (p : ProblemDetails) : UInt16 :=
  if 100 ≤ p.status ∧ p.status < 1000 then p.status else 500

end ProblemDetails

structure Response where
  status : UInt16
  contentType : String
  body : ProblemDetails

/-- `currentRequestUri` is what `get_current_request_uri` finds. -/
def ProblemDetails.intoResponse (p : ProblemDetails) (currentRequestUri : Option String) :
    Response :=
  { status := p.statusCode
    contentType := "application/problem+json"
    body := { p with «instance» := p.instance.or currentRequestUri } }

/-! ## Serialisation -/

/-- A field with `skip_serializing_if`. -/
def skipNone (field : String) : Option Json → Members
  | none => []
  | some v => [(field, v)]

def ViolationLocation.serialize : ViolationLocation → Json
  | .body => .string "body"
  | .query => .string "query"
  | .path => .string "path"

def Violation.serialize (violation : Violation) : Json :=
  .object [("field", .string violation.field), ("in", violation.location.serialize),
    ("message", .string violation.message)]

namespace ProblemDetails

def namedMembers (p : ProblemDetails) : Members :=
  [("type", .string p.problemType), ("title", .string p.title),
    ("status", .number p.status.toNat)] ++
  skipNone "detail" (p.detail.map .string) ++
  skipNone "instance" (p.instance.map .string) ++
  skipNone "violations"
    (if p.violations.isEmpty then none else some (.array (p.violations.map Violation.serialize)))

def serialize (p : ProblemDetails) (iteration : Iteration p.extensions) : Members :=
  p.namedMembers ++ iteration.entries.entries.map fun entry => (entry.1, entry.2)

end ProblemDetails

/-! ## Deserialisation -/

inductive DecodeError
  | missingField (field : String)
  | duplicateField (field : String)
  | invalidType (expected : String)
  | invalidValue (expected : String)
  | invalidLength (expected : String)
  | unknownVariant (variant : String)
deriving DecidableEq, Repr

def decodeString : Json → Except DecodeError String
  | .string s => .ok s
  | _ => .error (.invalidType "a string")

def decodeU16 : Json → Except DecodeError UInt16
  | .number n =>
    if 0 ≤ n ∧ n < UInt16.size then .ok (UInt16.ofNat n.toNat) else .error (.invalidValue "u16")
  | _ => .error (.invalidType "u16")

def decodeOption {α : Type} (decode : Json → Except DecodeError α) :
    Json → Except DecodeError (Option α)
  | .null => .ok none
  | v => (decode v).map some

def decodeList {α : Type} (decode : Json → Except DecodeError α) :
    Json → Except DecodeError (List α)
  | .array items => items.mapM decode
  | _ => .error (.invalidType "a sequence")

/-- The field of a struct, which may be there once. -/
def once {α : Type} (field : String) (decode : Json → Except DecodeError α) (slot : Option α)
    (v : Json) : Except DecodeError (Option α) :=
  match slot with
  | some _ => .error (.duplicateField field)
  | none => (decode v).map some

def required {α : Type} (field : String) : Option α → Except DecodeError α
  | none => .error (.missingField field)
  | some x => .ok x

/-- A unit variant is its name, or an object with its name and `null`. -/
def ViolationLocation.deserialize : Json → Except DecodeError ViolationLocation
  | .string name | .object [(name, .null)] =>
    match name with
    | "body" => .ok .body
    | "query" => .ok .query
    | "path" => .ok .path
    | variant => .error (.unknownVariant variant)
  | _ => .error (.invalidType "enum ViolationLocation")

namespace Violation

structure Fields where
  field : Option String := none
  location : Option ViolationLocation := none
  message : Option String := none

/-- Keys that name no field are ignored. -/
def Fields.visit (fields : Fields) (key : String) (v : Json) : Except DecodeError Fields :=
  match key with
  | "field" => (once key decodeString fields.field v).map fun x => { fields with field := x }
  | "in" =>
    (once key ViolationLocation.deserialize fields.location v).map fun x =>
      { fields with location := x }
  | "message" => (once key decodeString fields.message v).map fun x => { fields with message := x }
  | _ => .ok fields

/-- A struct is an object, or a list of its fields in their order. -/
def deserialize : Json → Except DecodeError Violation
  | .object members => do
    let fields ← members.foldlM (fun fields member => fields.visit member.1 member.2) ({} : Fields)
    let field ← required "field" fields.field
    let location ← required "in" fields.location
    let message ← required "message" fields.message
    return { field, location, message }
  | .array [field, location, message] => do
    let field ← decodeString field
    let location ← ViolationLocation.deserialize location
    let message ← decodeString message
    return { field, location, message }
  | .array _ => .error (.invalidLength "struct Violation with 3 elements")
  | _ => .error (.invalidType "struct Violation")

end Violation

namespace ProblemDetails

/-- The fields read so far, and the members whose keys name no field. -/
structure Fields where
  problemType : Option String := none
  title : Option String := none
  status : Option UInt16 := none
  detail : Option (Option String) := none
  «instance» : Option (Option String) := none
  violations : Option (List Violation) := none
  extensions : Extensions := ∅

def Fields.visit (fields : Fields) (key : String) (v : Json) : Except DecodeError Fields :=
  match key with
  | "type" =>
    (once key decodeString fields.problemType v).map fun x => { fields with problemType := x }
  | "title" => (once key decodeString fields.title v).map fun x => { fields with title := x }
  | "status" => (once key decodeU16 fields.status v).map fun x => { fields with status := x }
  | "detail" =>
    (once key (decodeOption decodeString) fields.detail v).map fun x => { fields with detail := x }
  | "instance" =>
    (once key (decodeOption decodeString) fields.instance v).map fun x =>
      { fields with «instance» := x }
  | "violations" =>
    (once key (decodeList Violation.deserialize) fields.violations v).map fun x =>
      { fields with violations := x }
  | _ => .ok { fields with extensions := fields.extensions.insert key v }

def Fields.visitAll (fields : Fields) (members : Members) : Except DecodeError Fields :=
  members.foldlM (fun fields member => fields.visit member.1 member.2) fields

def deserialize (members : Members) : Except DecodeError ProblemDetails := do
  let fields ← Fields.visitAll {} members
  let problemType ← required "type" fields.problemType
  let title ← required "title" fields.title
  let status ← required "status" fields.status
  return {
    problemType := problemType
    title := title
    status := status
    detail := fields.detail.getD none
    «instance» := fields.instance.getD none
    violations := fields.violations.getD []
    extensions := fields.extensions }

end ProblemDetails

end Summer.Web
