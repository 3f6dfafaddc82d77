/-
`#[component]` (`summer-macros/src/component/`): from a function to a plugin.

The macro sees types as they are written.  The name of the plugin comes from the return
type (`codegen.rs`), the names it depends on from the types of the parameters
(`dependency.rs`), and both keep no more of a type than the last identifier of its path.

Of an annotated function the macro reads the signature only, so `Signature` stands for
`func.sig`.  An identifier is its `to_string()`, with the `r#` of a raw one.
-/
import Summer.Macros.Syntax

namespace Summer.Macros

mutual

/-- `syn::Type`: a path, or any other type. -/
inductive Ty
  | path (qself : Option Ty) (leadingColon : Bool) (segments : List PathSegment)
  | other (text : String)

inductive PathSegment
  | mk (ident : String) (arguments : PathArguments)

inductive PathArguments
  | none
  | angleBracketed (args : List GenericArgument)
  | parenthesized (text : String)

inductive GenericArgument
  | type (ty : Ty)
  | other (text : String)

end

def PathSegment.ident : PathSegment → String
  | .mk ident _ => ident

namespace Ty

/-- `type_path.path.segments.last()`. -/
def lastSegment : Ty → Option PathSegment
  | .path _ _ segments => segments.getLast?
  | .other _ => none

/-- The test behind `is_result_type`, `is_config_type` and `is_component_type`. -/
def lastIdentIs (name : String) (ty : Ty) : Bool :=
  ty.lastSegment.any fun segment => decide (segment.ident = name)

/-- The body of the `extract_type_name` of `codegen.rs` and of the one of
`dependency.rs`. -/
def lastIdent (ty : Ty) : String :=
  match ty.lastSegment with
  | some segment => segment.ident
  | none => "Unknown"

end Ty

inductive FnArg
  | receiver
  | typed (attrs : List Attribute) (pat : String) (ty : Ty)

inductive ReturnType
  | default
  | type (ty : Ty)

structure Signature where
  ident : String
  isAsync : Bool
  inputs : List FnArg
  output : ReturnType

namespace Signature

def receiver (sig : Signature) : Option FnArg :=
  match sig.inputs with
  | .receiver :: _ => some .receiver
  | _ => none

end Signature

/-! ## Arguments of the attribute -/

structure ComponentAttrs where
  name : Option String
deriving DecidableEq, Repr

def componentAttrs : Parse ComponentAttrs
  | .ident ident :: rest =>
    if ident = "name" then
      match rest with
      | .punct '=' :: rest =>
        match litStr rest with
        | .ok (lit, rest) => .ok ({ name := some lit }, rest)
        | .error e => .error e
      | _ => .error .syn
    else
      .error (.message "unsupported attribute, only `name` is supported")
  | tokens => .ok ({ name := none }, tokens)

def parseComponentAttrs (attr : TokenStream) : Except MacroError ComponentAttrs :=
  if attr.isEmpty then .ok { name := none } else parseAll componentAttrs attr

/-! ## Utilities and validation -/

/-- The generic type `T` of a wrapper such as `Config<T>`. -/
def extractGenericType (ty : Ty) : Option Ty :=
  match ty.lastSegment with
  | some (.mk _ (.angleBracketed (.type inner :: _))) => some inner
  | _ => none

def extractReturnType : ReturnType → Option Ty
  | .default => none
  | .type ty => some ty

def isResultType (ty : Ty) : Bool := ty.lastIdentIs "Result"

def isConfigType (ty : Ty) : Bool := ty.lastIdentIs "Config"

def isComponentType (ty : Ty) : Bool := ty.lastIdentIs "Component"

def validateReturnType : ReturnType → Except MacroError Unit
  | .default => .error (.message "#[component] function must return a value (not unit type)")
  | .type _ => .ok ()

def validateParameter : FnArg → Except MacroError Unit
  | .receiver => .error (.message "#[component] cannot be used on methods")
  | .typed _ _ ty =>
    if !isConfigType ty && !isComponentType ty then
      .error (.message "Parameter must be Config<T> or Component<T>")
    else
      .ok ()

def validateFunctionSignature (func : Signature) : Except MacroError Unit :=
  if func.receiver.isSome then
    .error (.message "#[component] can only be applied to standalone functions, not methods")
  else do
    validateReturnType func.output
    func.inputs.forM validateParameter

/-! ## Dependencies -/

structure DependencyInfo where
  componentType : Ty
  explicitPluginName : Option String
  inferredPluginName : String

/-- The first `inject` attribute whose argument is one string literal. -/
def extractInjectAttr (attrs : List Attribute) : Option String :=
  attrs.findSome? fun attr =>
    if attr.path.isIdent "inject" then
      match attr.content with
      | .list _ tokens => (parseAll litStr tokens).toOption
      | _ => none
    else
      none

namespace Dependency

def extractTypeName (ty : Ty) : String := ty.lastIdent

def inferPluginName (componentType : Ty) : String :=
  "__Create" ++ extractTypeName componentType ++ "Plugin"

end Dependency

/-- The dependency that one parameter adds. -/
def analyzeParameter : FnArg → Option DependencyInfo
  | .receiver => none
  | .typed attrs _ ty =>
    if isComponentType ty then
      (extractGenericType ty).map fun componentType =>
        { componentType := componentType,
          explicitPluginName := extractInjectAttr attrs,
          inferredPluginName := Dependency.inferPluginName componentType }
    else
      none

def analyzeDependencies (func : Signature) : List DependencyInfo :=
  func.inputs.filterMap analyzeParameter

/-! ## Code generation -/

/-- The `let` that binds one parameter in the generated `build`. -/
inductive Extraction
  | config (pat : String) (ty : Ty)
  | component (pat : String) (ty : Ty)

/-- The generated `impl Plugin`: the values of `name()` and `dependencies()`, and what
`build` consists of. -/
structure PluginImpl where
  structName : String
  name : String
  dependencies : List String
  extractions : List Extraction
  isAsync : Bool
  isResult : Bool

structure ComponentExpansion where
  pluginImpl : PluginImpl
  inventorySubmit : String
  cleanFunc : Signature

/-- The remaining dependencies stand for `dep_index`: a `Component` parameter takes the next
one, also when it added none itself. -/
def generateParamExtractions : List FnArg → List DependencyInfo → List Extraction
  | [], _ => []
  | .receiver :: rest, dependencies => generateParamExtractions rest dependencies
  | .typed _ pat ty :: rest, dependencies =>
    if isConfigType ty then
      match extractGenericType ty with
      | some configType => .config pat configType :: generateParamExtractions rest dependencies
      | none => generateParamExtractions rest dependencies
    else if isComponentType ty then
      match dependencies with
      | dep :: dependencies =>
        .component pat dep.componentType :: generateParamExtractions rest dependencies
      | [] => generateParamExtractions rest []
    else
      generateParamExtractions rest dependencies

section

variable (isIdent : String → Bool)

/-- `format_ident!`, which panics on a text that is no identifier; a raw identifier is none
once something stands before it. -/
def formatIdent (text : String) : Except MacroError String :=
  if isIdent text then .ok text else .error (.message (text ++ " is not a valid identifier"))

namespace Codegen

def extractTypeName (ty : Ty) : String := ty.lastIdent

def generatePluginStructName (attrs : ComponentAttrs) (returnType : Ty) :
    Except MacroError String :=
  match attrs.name with
  | some name => formatIdent isIdent ("__" ++ name)
  | none => formatIdent isIdent ("__Create" ++ extractTypeName returnType ++ "Plugin")

def pluginLogicalName (attrs : ComponentAttrs) (returnType : Ty) : String :=
  attrs.name.getD ("__Create" ++ extractTypeName returnType ++ "Plugin")

def generatePluginImpl (attrs : ComponentAttrs) (func : Signature)
    (dependencies : List DependencyInfo) : Except MacroError PluginImpl :=
  match extractReturnType func.output with
  | none => .error (.message "#[component] function must return a value")
  | some returnType => do
    let pluginStructName ← generatePluginStructName isIdent attrs returnType
    return { structName := pluginStructName,
             name := pluginLogicalName attrs returnType,
             dependencies := dependencies.map fun dep =>
               dep.explicitPluginName.getD dep.inferredPluginName,
             extractions := generateParamExtractions func.inputs dependencies,
             isAsync := func.isAsync,
             isResult := isResultType returnType }

end Codegen

/-- A parameter without its `inject` attributes. -/
def FnArg.clean : FnArg → FnArg
  | .receiver => .receiver
  | .typed attrs pat ty => .typed (attrs.filter fun attr => !attr.path.isIdent "inject") pat ty

def componentMacro (attr : TokenStream) (func : Signature) :
    Except MacroError ComponentExpansion := do
  let attrs ← parseComponentAttrs attr
  validateFunctionSignature func
  let dependencies := analyzeDependencies func
  let pluginImpl ← Codegen.generatePluginImpl isIdent attrs func dependencies
  return { pluginImpl := pluginImpl,
           inventorySubmit := pluginImpl.structName,
           cleanFunc := { func with inputs := func.inputs.map FnArg.clean } }

end

/-! ## What a successful expansion says -/

/-- The name a plugin gets from a type. -/
def createName (ty : Ty) : String := "__Create" ++ ty.lastIdent ++ "Plugin"

theorem createName_inj {ty ty' : Ty} :
    createName ty = createName ty' ↔ ty.lastIdent = ty'.lastIdent := by
  simp only [createName, String.append_left_inj, String.append_right_inj]

theorem formatIdent_ok {isIdent : String → Bool} {text ident : String} :
    formatIdent isIdent text = .ok ident ↔ isIdent text = true ∧ ident = text := by
  unfold formatIdent
  cases isIdent text with
  | true => simp [eq_comm]
  | false => simp

/-- The plugin of a function without a custom name. -/
def autoImpl (func : Signature) (dependencies : List DependencyInfo) (returnType : Ty) :
    PluginImpl where
  structName := createName returnType
  name := createName returnType
  dependencies := dependencies.map fun dep => dep.explicitPluginName.getD dep.inferredPluginName
  extractions := generateParamExtractions func.inputs dependencies
  isAsync := func.isAsync
  isResult := isResultType returnType

theorem generatePluginImpl_ok {isIdent : String → Bool} {func : Signature}
    {dependencies : List DependencyInfo} {impl : PluginImpl} :
    Codegen.generatePluginImpl isIdent { name := none } func dependencies = .ok impl ↔
      ∃ returnType, func.output = .type returnType ∧ isIdent (createName returnType) = true ∧
        impl = autoImpl func dependencies returnType := by
  unfold Codegen.generatePluginImpl
  cases func.output with
  | default => simp [extractReturnType]
  | type returnType =>
      have hname : Codegen.generatePluginStructName isIdent { name := none } returnType =
          formatIdent isIdent (createName returnType) := rfl
      simp only [extractReturnType, hname, ReturnType.type.injEq, exists_eq_left']
      cases hident : formatIdent isIdent (createName returnType) with
      | ok ident =>
          obtain ⟨hvalid, rfl⟩ := formatIdent_ok.mp hident
          constructor
          · intro h
            cases h
            exact ⟨hvalid, rfl⟩
          · rintro ⟨_, rfl⟩
            rfl
      | error e =>
          constructor
          · intro h
            cases h
          · rintro ⟨hvalid, _⟩
            rw [formatIdent_ok.mpr ⟨hvalid, rfl⟩] at hident
            cases hident

/-- The expansion of an accepted function without a custom name: it fails only on a return
type whose name makes no identifier. -/
theorem componentMacro_eq {isIdent : String → Bool} {attr : TokenStream} {func : Signature}
    (hattr : parseComponentAttrs attr = .ok { name := none })
    (hvalid : validateFunctionSignature func = .ok ()) :
    componentMacro isIdent attr func =
      (Codegen.generatePluginImpl isIdent { name := none } func (analyzeDependencies func)).bind
        fun impl => .ok { pluginImpl := impl,
                          inventorySubmit := impl.structName,
                          cleanFunc := { func with inputs := func.inputs.map FnArg.clean } } := by
  unfold componentMacro
  rw [hattr, hvalid]
  rfl

/-- A function the macro accepts returns something. -/
theorem output_of_valid {func : Signature} (h : validateFunctionSignature func = .ok ()) :
    ∃ returnType, func.output = .type returnType := by
  cases houtput : func.output with
  | type returnType => exact ⟨returnType, rfl⟩
  | default =>
      unfold validateFunctionSignature at h
      split at h
      · cases h
      · rw [houtput] at h
        cases h

/-- The generated `build` looks up the components of the analysed dependencies and no
others. -/
theorem mem_generateParamExtractions {inputs : List FnArg} {dependencies : List DependencyInfo}
    {pat : String} {ty : Ty}
    (h : .component pat ty ∈ generateParamExtractions inputs dependencies) :
    ∃ dep ∈ dependencies, dep.componentType = ty := by
  fun_induction generateParamExtractions inputs dependencies with
  | case1 => cases h
  | case2 rest dependencies ih => exact ih h
  | case3 _ _ _ _ _ _ _ _ ih =>
      rcases List.mem_cons.mp h with h | h
      · cases h
      · exact ih h
  | case4 _ _ _ _ _ _ _ ih => exact ih h
  | case5 _ _ _ _ _ _ dep dependencies ih =>
      rcases List.mem_cons.mp h with h | h
      · cases h
        exact ⟨dep, List.mem_cons_self, rfl⟩
      · obtain ⟨d, hd, heq⟩ := ih h
        exact ⟨d, List.mem_cons_of_mem _ hd, heq⟩
  | case6 _ _ _ _ _ _ ih =>
      obtain ⟨_, hd, _⟩ := ih h
      cases hd
  | case7 _ _ _ _ _ _ _ ih => exact ih h

end Summer.Macros
