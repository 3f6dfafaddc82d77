/-
The responses of an OpenAPI operation as they are put together from several sources
(`summer-web/src/openapi.rs` and `summer-web/src/problem_details.rs`).

A response whose status code is there already gives its description to the one that is
there: the two texts become one.
-/
import Summer.Lib.IndexMap
import Summer.Macros.DocAttributes
import Summer.Web.ProblemDetails

namespace Summer.Web.OpenApi

inductive StatusCode
  | code (status : UInt16)
  | range (first : UInt16)
deriving DecidableEq, Repr

inductive ReferenceOr (T : Type)
  | reference (path : String)
  | item (value : T)

structure SchemaObject (S : Type) where
  jsonSchema : S
  exampleValue : Option Json

structure MediaType (S : Type) where
  schema : Option (SchemaObject S)

structure Response (S : Type) where
  description : String
  content : IndexMap String (MediaType S)

structure Responses (S : Type) where
  default : Option (ReferenceOr (Response S))
  responses : IndexMap StatusCode (ReferenceOr (Response S))

structure Operation (S : Type) where
  responses : Option (Responses S)

inductive GenError
  | inferredDefaultResponseConflict
deriving DecidableEq, Repr

/-- What the two functions are handed by reference: the errors of the context and the operation. -/
structure Generation (S : Type) where
  errors : List GenError
  operation : Operation S

def Responses.empty (S : Type) : Responses S := ⟨none, IndexMap.empty⟩

section
variable {S : Type}

/-- Adds a response, or its description to the one under its status code. -/
def Responses.add (merged : String → String → String) (responses : Responses S)
    (statusCode : StatusCode) (res : Response S) : Responses S :=
  match responses.responses.get? statusCode with
  | none => { responses with responses := responses.responses.insert statusCode (.item res) }
  | some (.reference _) => responses
  | some (.item existing) =>
    if existing.description ≠ res.description then
      { responses with
        responses := responses.responses.insert statusCode
          (.item { existing with
            description := merged existing.description res.description }) }
    else responses

def inferredMerge (existing description : String) : String :=
  "- " ++ existing ++ "\n- " ++ description

def variantMerge (existing description : String) : String :=
  existing ++ "\n- " ++ description

def setInferredResponse (g : Generation S) (status : Option StatusCode) (res : Response S) :
    Generation S :=
  let responses := g.operation.responses.getD (Responses.empty S)
  match status with
  | some statusCode =>
    { g with operation := ⟨some (responses.add inferredMerge statusCode res)⟩ }
  | none =>
    if responses.default.isSome then
      { errors := g.errors ++ [.inferredDefaultResponseConflict]
        operation := ⟨some responses⟩ }
    else
      { g with operation := ⟨some { responses with default := some (.item res) }⟩ }

/-- `get_variant_info`, without the schema that its caller drops. -/
abbrev VariantInfo := String → Option (UInt16 × String)

/-- What the crates around the function give it. -/
structure Host (S : Type) where
  toLowercase : String → String
  problemDetailsSchema : S

def variantName (variantPath : String) : String :=
  String.ofList (((Macros.Text.splitColons variantPath.toList).getLast?).getD variantPath.toList)

def variantResponse (host : Host S) (name : String) (statusCode : UInt16) (description : String) :
    Response S :=
  let problemType := "about:blank/" ++ (host.toLowercase name).replace "::" "-"
  let exampleValue := Json.object
    [("type", .string problemType),
      ("title", .string (name ++ " Error")),
      ("status", .number statusCode.toNat),
      ("detail", .string (name ++ " occurred"))]
  let mediaType : MediaType S := ⟨some ⟨host.problemDetailsSchema, some exampleValue⟩⟩
  { description := description
    content := (IndexMap.empty.insert "application/problem+json" mediaType).insert
      "application/json" mediaType }

def registerErrorResponseByVariant (host : Host S) (info : VariantInfo) (g : Generation S)
    (variantPath : String) : Generation S :=
  match info (variantName variantPath) with
  | none => g
  | some (statusCode, description) =>
    let response := variantResponse host (variantName variantPath) statusCode description
    let responses := g.operation.responses.getD (Responses.empty S)
    { g with operation := ⟨some (responses.add variantMerge (.code statusCode) response)⟩ }

/-! ## Calls -/

inductive Call (S : Type)
  | inferred (status : Option StatusCode) (res : Response S)
  | variant (info : VariantInfo) (variantPath : String)

def Call.apply (host : Host S) (g : Generation S) : Call S → Generation S
  | inferred status res => setInferredResponse g status res
  | variant info variantPath => registerErrorResponseByVariant host info g variantPath

def run (host : Host S) (start : Generation S) (calls : List (Call S)) : Generation S :=
  calls.foldl (Call.apply host) start

/-- The status code and the description that a call registers. -/
def Call.registers : Call S → Option (StatusCode × String)
  | inferred status res => status.map fun statusCode => (statusCode, res.description)
  | variant info variantPath =>
    (info (variantName variantPath)).map fun (statusCode, description) =>
      (.code statusCode, description)

def Operation.get? (operation : Operation S) (statusCode : StatusCode) :
    Option (ReferenceOr (Response S)) :=
  operation.responses.bind fun responses => responses.responses.get? statusCode

/-- The description that a call registers under a status code. -/
def Call.registersUnder (call : Call S) (statusCode : StatusCode) : Option String :=
  match call.registers with
  | some (code, description) => if code = statusCode then some description else none
  | none => none

/-- The descriptions registered under a status code: the one that was there at the start, and those
of the calls. -/
def registered (start : Generation S) (calls : List (Call S)) (statusCode : StatusCode) :
    List String :=
  (match start.operation.get? statusCode with
    | some (.item res) => [res.description]
    | _ => []) ++ calls.filterMap fun call => call.registersUnder statusCode

theorem run_concat (host : Host S) (start : Generation S) (before : List (Call S)) (call : Call S) :
    run host start (before ++ [call]) = call.apply host (run host start before) := by
  unfold run
  rw [List.foldl_append, List.foldl_cons, List.foldl_nil]

theorem registered_concat (start : Generation S) (before : List (Call S)) (call : Call S)
    (statusCode : StatusCode) :
    registered start (before ++ [call]) statusCode =
      registered start before statusCode ++ (call.registersUnder statusCode).toList := by
  unfold registered
  rw [List.filterMap_append, ← List.append_assoc]
  congr 1

theorem registersUnder_eq_some_iff {call : Call S} {statusCode : StatusCode}
    {description : String} :
    call.registersUnder statusCode = some description ↔
      call.registers = some (statusCode, description) := by
  unfold Call.registersUnder
  cases call.registers with
  | none => simp
  | some target =>
      obtain ⟨code, d⟩ := target
      by_cases hcode : code = statusCode <;> simp [hcode]

end

end Summer.Web.OpenApi
