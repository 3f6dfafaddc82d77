/-
The `middlewares` macro (`summer-macros/src/middlewares.rs`), on a module and on a function.

The macro strips every attribute with one of the names of `ROUTE_ATTR_DEFS`, but a route is
collected only from an attribute with an HTTP method of its own and one string literal as
its whole argument list (`processRouteAttribute_eq`); and it strips every `middlewares`
attribute of a function, but reads only the first one in a module and none on a function.
-/
import Summer.Macros.DocAttributes
import Summer.Macros.Route

namespace Summer.Macros

structure RouteAttrDef where
  name : String
  httpMethod : Option String
  openapi : Bool
deriving DecidableEq, Repr

def routeAttrDefs : List RouteAttrDef :=
  [{ name := "get", httpMethod := some "GET", openapi := false },
    { name := "post", httpMethod := some "POST", openapi := false },
    { name := "put", httpMethod := some "PUT", openapi := false },
    { name := "delete", httpMethod := some "DELETE", openapi := false },
    { name := "patch", httpMethod := some "PATCH", openapi := false },
    { name := "head", httpMethod := some "HEAD", openapi := false },
    { name := "options", httpMethod := some "OPTIONS", openapi := false },
    { name := "trace", httpMethod := some "TRACE", openapi := false },
    { name := "get_api", httpMethod := some "GET", openapi := true },
    { name := "post_api", httpMethod := some "POST", openapi := true },
    { name := "put_api", httpMethod := some "PUT", openapi := true },
    { name := "delete_api", httpMethod := some "DELETE", openapi := true },
    { name := "patch_api", httpMethod := some "PATCH", openapi := true },
    { name := "head_api", httpMethod := some "HEAD", openapi := true },
    { name := "options_api", httpMethod := some "OPTIONS", openapi := true },
    { name := "trace_api", httpMethod := some "TRACE", openapi := true },
    { name := "route", httpMethod := none, openapi := false },
    { name := "routes", httpMethod := none, openapi := false },
    { name := "api_route", httpMethod := none, openapi := true },
    { name := "api_routes", httpMethod := none, openapi := true }]

def lookupAttr (attr : Attribute) : Option RouteAttrDef :=
  routeAttrDefs.find? fun d => attr.path.isIdent d.name

def isRouteAttr (attr : Attribute) : Bool := (lookupAttr attr).isSome

def isOpenapiAttr (attr : Attribute) : Bool := (lookupAttr attr).any RouteAttrDef.openapi

def attrToHttpMethod (attr : Attribute) : Option String :=
  (lookupAttr attr).bind RouteAttrDef.httpMethod

def isMiddlewares (attr : Attribute) : Bool := attr.path.isIdent "middlewares"

inductive Item
  | fn (function : ItemFn)
  | other (text : String)
deriving DecidableEq, Repr

/-- A module; `content` is `none` for `mod name;`. -/
structure ItemMod where
  ident : String
  attrs : List Attribute
  content : Option (List Item)
deriving DecidableEq, Repr

structure RouteInfo (E : Type) where
  funcName : String
  path : String
  methods : List String
  functionMiddlewares : List E
  isOpenapi : Bool
  docAttributes : List Attribute

/-- The generated code for one route: `MethodRouter::on` for every filter, the calls of
`layer` in their order, and the operations documented if the route is an OpenAPI one. -/
structure Registration (E : Type) where
  path : String
  methods : List String
  handler : String
  layers : List E
  operations : List (String × OperationMetadata)

/-- What the macro is attached to. -/
inductive Input
  | fn (function : ItemFn)
  | mod (module : ItemMod)
  | other (text : String)
deriving DecidableEq, Repr

/-- The stripped item and the registrar generated with it. -/
structure Expansion (E : Type) where
  item : Input
  registrar : String
  registrations : List (Registration E)
  moduleLayers : List E
  nestPrefix : Option String

section
variable {E : Type}

def middlewareList (syn : Syn E) : Parse (List E) := fun tokens =>
  match syn.parseExprs tokens with
  | some middlewares => .ok (middlewares, [])
  | none => .error .syn

/-! ## Collecting routes -/

/-- The routing attributes taken out, and the attributes that stay. -/
def extractAndFilterRouteAttrs (attrs : List Attribute) : List Attribute × List Attribute :=
  (attrs.filter isRouteAttr, attrs.filter fun attr => !isRouteAttr attr && !isMiddlewares attr)

/-- The first `nest` attribute with a string literal. -/
def extractNestPrefix (module : ItemMod) : Option String :=
  (module.attrs.filter fun attr => attr.path.isIdent "nest").findSome? fun attr =>
    (attr.parseArgs litStr).toOption

def extractFunctionMiddlewares (syn : Syn E) (attrs : List Attribute) :
    Except MacroError (List E) :=
  match attrs.find? isMiddlewares with
  | some attr => attr.parseArgs (middlewareList syn)
  | none => .ok []

def removeProcessedAttributes (attrs : List Attribute) : List Attribute :=
  attrs.filter fun attr => !isMiddlewares attr && !isRouteAttr attr

def processRouteAttribute (attr : Attribute) (funcName : String) (functionMiddlewares : List E)
    (docAttributes : List Attribute) : Option (RouteInfo E) :=
  match attrToHttpMethod attr with
  | none => none
  | some method =>
    match attr.parseArgs litStr with
    | .error _ => none
    | .ok path =>
      some { funcName := funcName,
             path := path,
             methods := [method],
             functionMiddlewares := functionMiddlewares,
             isOpenapi := isOpenapiAttr attr,
             docAttributes := if isOpenapiAttr attr then docAttributes else [] }

def collectItem (syn : Syn E) : Item → Except MacroError (List (RouteInfo E) × Item)
  | .fn function =>
    match extractFunctionMiddlewares syn function.attrs with
    | .error e => .error e
    | .ok functionMiddlewares =>
      let attrs := extractAndFilterRouteAttrs function.attrs
      .ok (attrs.1.filterMap fun attr =>
          processRouteAttribute attr function.ident functionMiddlewares
            (Route.docAttributesOf function.attrs),
        .fn { function with attrs := attrs.2 })
  | .other text => .ok ([], .other text)

def collectAndStripRouteInfo (syn : Syn E) (module : ItemMod) :
    Except MacroError (List (RouteInfo E) × ItemMod) :=
  match module.content with
  | none => .ok ([], module)
  | some items =>
    match items.mapM (collectItem syn) with
    | .error e => .error e
    | .ok collected =>
      .ok (collected.flatMap Prod.fst, { module with content := some (collected.map Prod.snd) })

def extractRouteInfoFromFunction (function : ItemFn) : List (RouteInfo E) :=
  function.attrs.filterMap fun attr =>
    processRouteAttribute attr function.ident [] (Route.docAttributesOf function.attrs)

/-! ## The generated code -/

/-- A code without a type and a variant, or whose type is not a path, is a panic. -/
def statusCodeFormed (syn : Syn E) (code : Text) : Bool :=
  let pathParts := Text.splitColons code
  decide (2 ≤ pathParts.length) &&
    syn.isPath (String.ofList (List.intercalate [':', ':'] pathParts.dropLast))

def buildStatusCodeGen (syn : Syn E) (route : RouteInfo E) : Except MacroError Unit :=
  match (parseDocAttributes route.docAttributes route.funcName).statusCodes.find?
      fun code => !statusCodeFormed syn code with
  | none => .ok ()
  | some code =>
    let pathParts := Text.splitColons code
    if pathParts.length < 2 then
      .error (.message ("Invalid status_codes format: " ++ String.ofList code ++
        ". Expected format: TypeName::VariantName"))
    else
      .error (.message ("Invalid type path: " ++
        String.ofList (List.intercalate [':', ':'] pathParts.dropLast)))

def operationBinders (route : RouteInfo E) : List (String × OperationMetadata) :=
  route.methods.map fun method =>
    (method.toLower, parseDocAttributes route.docAttributes route.funcName)

/-- The registration of a route with the layers given. -/
def registrationWith (syn : Syn E) (route : RouteInfo E) (layers : List E) :
    Except MacroError (Registration E) :=
  let registration : Registration E :=
    { path := route.path, methods := route.methods, handler := route.funcName, layers := layers,
      operations := [] }
  if route.isOpenapi then
    match buildStatusCodeGen syn route with
    | .error e => .error e
    | .ok () => .ok { registration with operations := operationBinders route }
  else
    .ok registration

def generateRouteRegistration (syn : Syn E) (route : RouteInfo E) :
    Except MacroError (Registration E) :=
  registrationWith syn route route.functionMiddlewares.reverse

def generateFunctionRouteRegistration (syn : Syn E) (middlewareExpressions : List E)
    (route : RouteInfo E) : Except MacroError (Registration E) :=
  registrationWith syn route middlewareExpressions

def handleFunctionMiddlewares (syn : Syn E) (middlewares : List E) (function : ItemFn) :
    Except MacroError (Expansion E) :=
  let routeInfo := extractRouteInfoFromFunction function
  if routeInfo.isEmpty then
    .error (.message "Function must have at least one route attribute (e.g., #[get(\"/path\")])")
  else
    match routeInfo.mapM (generateFunctionRouteRegistration syn middlewares.reverse) with
    | .error e => .error e
    | .ok registrations =>
      .ok { item := .fn { function with attrs := removeProcessedAttributes function.attrs },
            registrar := function.ident ++ "MiddlewareRegistrar",
            registrations := registrations,
            moduleLayers := [],
            nestPrefix := none }

def handleModuleMiddlewares (syn : Syn E) (middlewares : List E) (module : ItemMod) :
    Except MacroError (Expansion E) :=
  match collectAndStripRouteInfo syn module with
  | .error e => .error e
  | .ok (routeInfo, stripped) =>
    match routeInfo.mapM (generateRouteRegistration syn) with
    | .error e => .error e
    | .ok registrations =>
      if stripped.content = none then
        .error (.message "Module must have content to apply middlewares")
      else
        .ok { item := .mod stripped,
              registrar := module.ident ++ "MiddlewareRegistrar",
              registrations := registrations,
              moduleLayers := middlewares.reverse,
              nestPrefix := extractNestPrefix module }

def middlewaresInner (syn : Syn E) (args : TokenStream) (input : Input) :
    Except MacroError (Expansion E) :=
  if args.isEmpty then
    .error (.message ("missing arguments for middlewares macro, expected: " ++
      "#[middlewares(middleware1, middleware2, ...)]"))
  else
    match parseAll (middlewareList syn) args with
    | .error _ =>
      .error (.message ("arguments to middlewares macro must be valid expressions, expected: " ++
        "#[middlewares(middleware1, middleware2, ...)]"))
    | .ok middlewares =>
      match input with
      | .fn function => handleFunctionMiddlewares syn middlewares function
      | .mod module => handleModuleMiddlewares syn middlewares module
      | .other _ =>
        .error (.message "#[middlewares] macro must be attached to a module")

/-- The path and the method of an attribute that has an HTTP method and whose argument list
is one string literal. -/
def bareRoute (attr : Attribute) : Option (String × String) :=
  match attrToHttpMethod attr, attr.content with
  | some method, .list _ [.str path] => some (path, method)
  | _, _ => none

/-! ## The names stripped are those of routing macros -/

theorem lookupAttr_eq_some {attr : Attribute} {d : RouteAttrDef} (h : lookupAttr attr = some d) :
    d ∈ routeAttrDefs ∧ attr.path = .ident d.name := by
  unfold lookupAttr at h
  have hident := List.find?_some h
  exact ⟨List.mem_of_find?_eq_some h, Path.isIdent_iff.mp hident⟩

theorem routingMacro_of_def : ∀ d ∈ routeAttrDefs, ∀ method, d.httpMethod = some method →
    ∃ m ∈ Method.all, m.upper = method ∧
      routingMacro ⟨.path (.ident d.name)⟩ = some (.one (some m)) := by
  decide

theorem routingMacro_congr {attr attr' : Attribute} (h : attr.path = attr'.path) :
    routingMacro attr = routingMacro attr' := by
  unfold routingMacro
  rw [h]

theorem routingMacro_of_method {attr : Attribute} {method : String}
    (h : attrToHttpMethod attr = some method) :
    ∃ m : Method, m.upper = method ∧ routingMacro attr = some (.one (some m)) := by
  unfold attrToHttpMethod at h
  cases hlookup : lookupAttr attr with
  | none =>
      rw [hlookup] at h
      cases h
  | some d =>
      rw [hlookup] at h
      obtain ⟨hmem, hpath⟩ := lookupAttr_eq_some hlookup
      obtain ⟨m, _, hupper, hrouting⟩ := routingMacro_of_def d hmem method h
      exact ⟨m, hupper, (routingMacro_congr hpath).trans hrouting⟩

/-- A routing macro is stripped under each of its names. -/
theorem isRouteAttr_of_routingMacro {attr : Attribute} {r : RoutingMacro}
    (h : routingMacro attr = some r) : isRouteAttr attr = true := by
  unfold routingMacro at h
  obtain ⟨d, hd, _⟩ := Option.map_eq_some_iff.mp h
  have hident := List.find?_some hd
  have hpath := Path.isIdent_iff.mp hident
  have hname : ∀ d ∈ routingMacros, isRouteAttr ⟨.path (.ident d.1)⟩ = true := by decide
  have hroute := hname d (List.mem_of_find?_eq_some hd)
  unfold isRouteAttr lookupAttr at hroute ⊢
  rw [hpath]
  exact hroute

theorem bareRoute_eq_some {attr : Attribute} {path method : String} :
    bareRoute attr = some (path, method) ↔
      attrToHttpMethod attr = some method ∧ ∃ p, attr.content = .list p [.str path] := by
  unfold bareRoute
  split
  · next hmethod hcontent => simp [hmethod, hcontent, and_comm]
  · next hnot =>
      simp only [reduceCtorEq, false_iff, not_and, not_exists]
      exact fun hmethod p hcontent => hnot method p path hmethod hcontent

/-- A bare route is accepted by its macro, with the same path and method. -/
theorem acceptedRoute_of_bare {syn : Syn E} {attr : Attribute} {path method : String}
    (h : bareRoute attr = some (path, method)) :
    ∃ m : Method, m.upper = method ∧ acceptedRoute syn attr = some (path, {m}) := by
  obtain ⟨hmethod, p, hcontent⟩ := bareRoute_eq_some.mp h
  obtain ⟨m, hupper, hrouting⟩ := routingMacro_of_method hmethod
  have htokens : attr.macroArgs = some [.str path] := by
    unfold Attribute.macroArgs
    rw [hcontent]
  refine ⟨m, hupper, ?_⟩
  unfold acceptedRoute
  simp only [hrouting, htokens, Args.ofTokens_literal]

theorem parseArgs_litStr {attr : Attribute} {path : String} :
    attr.parseArgs litStr = .ok path ↔ ∃ p, attr.content = .list p [.str path] := by
  rw [Attribute.parseArgs_ok_iff]
  constructor
  · intro h
    obtain ⟨p, tokens, hcontent, htokens⟩ := h
    exact ⟨p, by rw [hcontent, litStr_ok_iff.mp htokens]⟩
  · intro h
    obtain ⟨p, hcontent⟩ := h
    exact ⟨p, [.str path], hcontent, rfl⟩

/-- Only bare routes are collected. -/
theorem processRouteAttribute_eq {attr : Attribute} {funcName : String} {middlewares : List E}
    {docs : List Attribute} :
    processRouteAttribute attr funcName middlewares docs =
      (bareRoute attr).map fun r =>
        { funcName := funcName,
          path := r.1,
          methods := [r.2],
          functionMiddlewares := middlewares,
          isOpenapi := isOpenapiAttr attr,
          docAttributes := if isOpenapiAttr attr then docs else [] } := by
  cases hbare : bareRoute attr with
  | some r =>
      obtain ⟨hmethod, hcontent⟩ := bareRoute_eq_some.mp hbare
      unfold processRouteAttribute
      simp only [hmethod, parseArgs_litStr.mpr hcontent, Option.map_some]
  | none =>
      unfold processRouteAttribute
      cases hmethod : attrToHttpMethod attr with
      | none => rfl
      | some method =>
          cases hparse : attr.parseArgs litStr with
          | error e => rfl
          | ok path =>
              rw [bareRoute_eq_some.mpr ⟨hmethod, parseArgs_litStr.mp hparse⟩] at hbare
              cases hbare

end

end Summer.Macros
