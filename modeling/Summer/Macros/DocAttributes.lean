/-
The documentation of a handler as OpenAPI metadata
(`summer-macros/src/route/openapi.rs`).  Texts are lists of characters.
-/
import Summer.Macros.Syntax

namespace Summer.Macros

abbrev Text := List Char

namespace Text

/-- The characters `trim` removes: those with the property `White_Space`. -/
def isWhitespace (c : Char) : Bool :=
  (9 ≤ c.toNat && c.toNat ≤ 13) || c.toNat = 0x20 || c.toNat = 0x85 || c.toNat = 0xA0 ||
    c.toNat = 0x1680 || (0x2000 ≤ c.toNat && c.toNat ≤ 0x200A) || c.toNat = 0x2028 ||
    c.toNat = 0x2029 || c.toNat = 0x202F || c.toNat = 0x205F || c.toNat = 0x3000

def trimStart (text : Text) : Text := text.dropWhile isWhitespace

def trimEnd (text : Text) : Text := (text.reverse.dropWhile isWhitespace).reverse

def trim (text : Text) : Text := trimEnd (trimStart text)

/-- `text.split("::")`. -/
def splitColons : Text → List Text
  | [] => [[]]
  | ':' :: ':' :: rest => [] :: splitColons rest
  | c :: rest =>
    match splitColons rest with
    | [] => [[c]]
    | part :: parts => (c :: part) :: parts

end Text

structure ExternalDocumentation where
  description : Option Text
  url : Text
deriving DecidableEq, Repr

structure OperationMetadata where
  tags : List Text
  summary : Option Text
  description : Option Text
  externalDocs : Option ExternalDocumentation
  operationId : Option Text
  deprecated : Bool
  statusCodes : List Text
deriving DecidableEq, Repr

def docLine (attr : Attribute) : Option Text :=
  match attr.content with
  | .nameValue p (.str value) =>
    if p.isIdent "doc" then some (Text.trimStart value.toList) else none
  | _ => none

def extractDocLines (attrs : List Attribute) : List Text :=
  (attrs.filterMap docLine).dropWhile fun line => (Text.trim line).isEmpty

/-- The locals of the loop over the lines; `description` is the text collected so far. -/
structure DocState where
  summary : Option Text
  description : Text
  tags : List Text
  id : Option Text
  deprecated : Bool
  externalDocs : Option ExternalDocumentation
  statusCodes : List Text

def DocState.addLine (s : DocState) (line : ℕ × Text) : DocState :=
  let text := Text.trim line.2
  if line.1 = 0 ∧ s.summary = none ∧ text ≠ [] then
    { s with summary := some (Text.trimStart (text.dropWhile fun c => c = '#')) }
  else if let some stripped := "@tag ".toList.isPrefixOf? text then
    { s with tags := s.tags ++ [Text.trim stripped] }
  else if let some stripped := "@id ".toList.isPrefixOf? text then
    { s with id := some (Text.trim stripped) }
  else if let some stripped := "@see ".toList.isPrefixOf? text then
    { s with externalDocs := some { url := Text.trim stripped, description := none } }
  else if "@deprecated".toList.isPrefixOf text then
    { s with deprecated := true }
  else if let some stripped := "@status_codes ".toList.isPrefixOf? text then
    { s with statusCodes := s.statusCodes ++
        ((stripped.splitOn ',').map Text.trim).filter fun code => !code.isEmpty }
  else if "@".toList.isPrefixOf text then
    s
  else
    { s with description := s.description ++ text ++ ['\n'] }

def parseDocAttributes (attrs : List Attribute) (fnName : String) : OperationMetadata :=
  let s := ((extractDocLines attrs).zipIdx.map Prod.swap).foldl DocState.addLine
    { summary := none,
      description := [],
      tags := [],
      id := some fnName.toList,
      deprecated := false,
      externalDocs := none,
      statusCodes := [] }
  let description := Text.trim s.description
  { summary := s.summary,
    description := if description = [] then none else some description,
    tags := s.tags,
    operationId := s.id,
    deprecated := s.deprecated,
    externalDocs := s.externalDocs,
    statusCodes := s.statusCodes }

end Summer.Macros
