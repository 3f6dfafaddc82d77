/-
`derive(ProblemDetails)` (`summer-macros/src/problem_details.rs`): from a variant of an error type
to the problem details of its values.

The macro writes an expression for every variant; `eval` is what the expression returns.  What
`format!` makes of a format text and the field of a value is a parameter, and so is how an
integer literal is read.
-/
import Summer.Macros.Syntax
import Summer.Web.ProblemDetails

namespace Summer.Macros

open Summer.Web (ProblemDetails)

inductive Fields
  | unit
  | unnamed (types : List String)
  | named (names : List String)
deriving DecidableEq, Repr

structure Variant where
  ident : String
  fields : Fields
  attrs : List Attribute
deriving DecidableEq, Repr

inductive Data
  | enum (variants : List Variant)
  | other
deriving DecidableEq, Repr

/-! ## Attributes -/

/-- `input.parse::<LitInt>()`, as the number that the literal denotes. -/
def litInt (digits : String → Option ℕ) : Parse ℕ
  | .lit text :: rest =>
    match digits text with
    | some n => .ok (n, rest)
    | none => .error .syn
  | _ => .error .syn

def getStatusCodeLiteral (digits : String → Option ℕ) : List Attribute → Except MacroError UInt16
  | [] => .error (.message ("Missing #[status_code(...)] attribute. Each variant must have a " ++
      "status_code attribute, e.g., #[status_code(404)]"))
  | attr :: attrs =>
    if attr.path.isIdent "status_code" then
      match attr.parseArgs (litInt digits) with
      | .error e => .error e
      | .ok n => if n < 2 ^ 16 then .ok (UInt16.ofNat n) else .error .syn
    else getStatusCodeLiteral digits attrs

/-- The text of the first attribute with the name. -/
def getTextFromAttrs (name : String) : List Attribute → Except MacroError (Option String)
  | [] => .ok none
  | attr :: attrs =>
    if attr.path.isIdent name then (attr.parseArgs litStr).map some
    else getTextFromAttrs name attrs

def getProblemTypeFromAttrs : List Attribute → Except MacroError (Option String) :=
  getTextFromAttrs "problem_type"

def getDetailFromAttrs : List Attribute → Except MacroError (Option String) :=
  getTextFromAttrs "detail"

def getInstanceFromAttrs : List Attribute → Except MacroError (Option String) :=
  getTextFromAttrs "instance"

/-- The test for format parameters: an opening brace and a closing one, in any order. -/
def hasBraces (value : String) : Bool := value.toList.contains '{' && value.toList.contains '}'

/-- The second loop of `get_title_from_attrs`. -/
def titleOfError : List Attribute → Option String
  | [] => none
  | attr :: attrs =>
    if attr.path.isIdent "error" then
      match attr.parseArgs litStr with
      | .ok text => if hasBraces text then none else some text
      | .error _ => titleOfError attrs
    else titleOfError attrs

def getTitleFromAttrs (attrs : List Attribute) : Except MacroError (Option String) :=
  match getTextFromAttrs "title" attrs with
  | .error e => .error e
  | .ok (some title) => .ok (some title)
  | .ok none => .ok (titleOfError attrs)

def isTransparent (attr : Attribute) : Bool :=
  match attr.content with
  | .list _ [.ident name] => name = "transparent"
  | _ => false

/-- `get_error_format_from_attrs`, which returns no error. -/
def getErrorFormatFromAttrs : List Attribute → Option String
  | [] => none
  | attr :: attrs =>
    if attr.path.isIdent "error" then
      if isTransparent attr then none
      else
        match attr.parseArgs litStr with
        | .ok text => if hasBraces text then some text else getErrorFormatFromAttrs attrs
        | .error _ => getErrorFormatFromAttrs attrs
    else getErrorFormatFromAttrs attrs

/-! ## The generated expression -/

/-- `"text".to_string()` or `format!("text", inner)`. -/
inductive TextExpr
  | literal (text : String)
  | format (text : String)
deriving DecidableEq, Repr

inductive DetailsExpr
  | new (problemType : String) (title : TextExpr) (status : UInt16) (detail : TextExpr)
      (withInstance : Option String)
  | validationError (detail : TextExpr)
  | authenticationError
  | authorizationError
  | notFound (resource : TextExpr)
  | internalServerError
  | serviceUnavailable
deriving DecidableEq, Repr

def generateFormatExpr (fields : Fields) (formatStr : String) : TextExpr :=
  match fields with
  | .unnamed [_] => .format formatStr
  | _ => .literal formatStr

def resolveStringOrFormatExpr (fields : Fields) (value : String) : TextExpr :=
  if hasBraces value then generateFormatExpr fields value else .literal value

/-- The text of an attribute, else the format of `#[error]`, else the default. -/
def textExpr (fields : Fields) (value errorFormat : Option String) (default : String) :
    TextExpr :=
  match value with
  | some value => resolveStringOrFormatExpr fields value
  | none =>
    match errorFormat with
    | some errorFmt => generateFormatExpr fields errorFmt
    | none => .literal default

/-- The choice of the expression, once the attributes are read. -/
def detailsExpr (fields : Fields) (statusCode : UInt16) (variantName : String)
    (problemType title detail withInstance errorFormat : Option String) : DetailsExpr :=
  let titleExpr := textExpr fields title errorFormat (variantName ++ " Error")
  let detailExpr := textExpr fields detail errorFormat (variantName ++ " occurred")
  match problemType with
  | some customType => .new customType titleExpr statusCode detailExpr withInstance
  | none =>
    if statusCode = 400 then .validationError detailExpr
    else if statusCode = 401 then .authenticationError
    else if statusCode = 403 then .authorizationError
    else if statusCode = 404 then .notFound (textExpr fields detail errorFormat "resource")
    else if statusCode = 500 then .internalServerError
    else if statusCode = 503 then .serviceUnavailable
    else .new "about:blank" titleExpr statusCode detailExpr withInstance

def generateProblemDetailsForVariant (fields : Fields) (statusCode : UInt16)
    (variantName : String) (attrs : List Attribute) : Except MacroError DetailsExpr := do
  let problemType ← getProblemTypeFromAttrs attrs
  let title ← getTitleFromAttrs attrs
  let detail ← getDetailFromAttrs attrs
  let withInstance ← getInstanceFromAttrs attrs
  return detailsExpr fields statusCode variantName problemType title detail withInstance
    (getErrorFormatFromAttrs attrs)

/-- The pattern of an arm; that of a tuple variant binds one field. -/
inductive Pattern
  | unit
  | inner
  | rest
deriving DecidableEq, Repr

def Pattern.fits : Pattern → Fields → Bool
  | .unit, .unit => true
  | .inner, .unnamed [_] => true
  | .rest, .named _ => true
  | _, _ => false

structure Arm where
  variant : String
  pattern : Pattern
  expr : DetailsExpr
deriving DecidableEq, Repr

def patternOf : Fields → Pattern
  | .unit => .unit
  | .unnamed _ => .inner
  | .named _ => .rest

def deriveArm (digits : String → Option ℕ) (variant : Variant) : Except MacroError Arm := do
  let statusCode ← getStatusCodeLiteral digits variant.attrs
  let expr ← generateProblemDetailsForVariant variant.fields statusCode variant.ident variant.attrs
  return { variant := variant.ident, pattern := patternOf variant.fields, expr := expr }

/-- The arms of `From`, in the order of the variants. -/
def expandDerive (digits : String → Option ℕ) : Data → Except MacroError (List Arm)
  | .enum variants => variants.mapM (deriveArm digits)
  | .other => .error (.message "ProblemDetails can only be derived for enums")

/-! ## The generated code -/

def TextExpr.eval (format : String → String) : TextExpr → String
  | .literal text => text
  | .format text => format text

def DetailsExpr.eval (format : String → String) : DetailsExpr → ProblemDetails
  | .new problemType title status detail none =>
    (ProblemDetails.new problemType (title.eval format) status).withDetail (detail.eval format)
  | .new problemType title status detail (some uri) =>
    ((ProblemDetails.new problemType (title.eval format) status).withDetail
      (detail.eval format)).withInstance uri
  | .validationError detail => ProblemDetails.validationError (detail.eval format)
  | .authenticationError => ProblemDetails.authenticationError
  | .authorizationError => ProblemDetails.authorizationError
  | .notFound resource => ProblemDetails.notFound (resource.eval format)
  | .internalServerError => ProblemDetails.internalServerError
  | .serviceUnavailable => ProblemDetails.serviceUnavailable

/-- `ProblemDetails::from(error)` for a value of the variant: `none` where the macro fails or
where what it wrote does not compile. -/
def fromVariant (digits : String → Option ℕ) (format : String → String) (variants : List Variant)
    (variant : Variant) : Option ProblemDetails :=
  match expandDerive digits (.enum variants) with
  | .error _ => none
  | .ok arms =>
    if (arms.zip variants).all fun (arm, variant) => arm.pattern.fits variant.fields then
      (arms.find? fun arm => arm.variant = variant.ident).map fun arm => arm.expr.eval format
    else none

end Summer.Macros
