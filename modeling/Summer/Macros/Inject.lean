/-
`derive(Service)` (`summer-macros/src/inject.rs`): from a struct to a service.

A field is classified by its `inject` attribute or else by the last identifier of its type, and
the struct by its `service` attribute.  The parsers of paths and of calls are parameters, and so
is what counts as an identifier and as a path in a string.
-/
import Mathlib.Data.List.Sort
import Summer.Inject.Service
import Summer.Macros.Component

namespace Summer.Macros

/-- A `syn::Path`, which keeps its generic arguments. -/
structure TypePath where
  leadingColon : Bool
  segments : List PathSegment

def TypePath.isIdent (path : TypePath) (name : String) : Bool :=
  match path.leadingColon, path.segments with
  | false, [.mk ident .none] => ident = name
  | _, _ => false

/-- `Type::Path`; a `qself` is dropped. -/
def Ty.typePath : Ty → Option TypePath
  | .path _ leadingColon segments => some { leadingColon := leadingColon, segments := segments }
  | .other _ => none

structure Field where
  ident : Option String
  attrs : List Attribute
  ty : Ty

/-- `E` stands for calls. -/
structure InjectSyn (E : Type) where
  parsePath : Parse TypePath
  parseExprCall : Parse E
  isPath : String → Bool
  isIdent : String → Bool

def injectErrorTip : MacroError := .message "inject Service only support Named-field Struct"

/-! ## Fields -/

section
variable {E : Type}

inductive InjectableType (E : Type)
  | option
  | component (optional : Bool) (componentType : TypePath)
  | lazyComponent (componentType : TypePath)
  | config (path : TypePath)
  | componentRef (path : TypePath)
  | configRef (path : TypePath)
  | funcCall (call : E)
  | prototypeArg (ty : Ty)

def InjectableType.order : InjectableType E → ℕ
  | .option => 0
  | .component _ _ => 1
  | .lazyComponent _ => 1
  | .config _ => 2
  | .componentRef _ => 3
  | .configRef _ => 4
  | .funcCall _ => 5
  | .prototypeArg _ => 6

inductive InjectableAttr (E : Type)
  | component
  | config
  | funcCall (call : E)

structure Injectable (E : Type) where
  isPrototype : Bool
  ty : InjectableType E
  fieldName : String

/-- The path of the last generic argument. -/
def getArgumentType : PathArguments → Except MacroError TypePath
  | .angleBracketed args =>
    match args.getLast? with
    | some (.type (.path _ leadingColon segments)) =>
      .ok { leadingColon := leadingColon, segments := segments }
    | _ => .error injectErrorTip
  | _ => .error injectErrorTip

def invalidInject : MacroError :=
  .message "invalid inject definition, expected #[inject(component|config|func(args))]"

def injectableAttr (syn : InjectSyn E) : Parse (InjectableAttr E) := fun tokens =>
  match syn.parsePath tokens with
  | .error e => .error e
  | .ok (name, rest) =>
    if name.isIdent "component" then .ok (.component, rest)
    else if name.isIdent "config" then .ok (.config, rest)
    else if name.isIdent "func" then
      match rest with
      | .punct '=' :: rest =>
        match syn.parseExprCall rest with
        | .ok (call, rest) => .ok (.funcCall call, rest)
        | .error e => .error e
      | _ => .error .syn
    else .error invalidInject

def InjectableAttr.makeType (ty : TypePath) :
    InjectableAttr E → Except MacroError (InjectableType E)
  | .component =>
    match ty.segments.getLast? with
    | none => .error injectErrorTip
    | some (.mk ident arguments) =>
      if ident = "Option" then (getArgumentType arguments).map (.component true)
      else .ok (.component false ty)
  | .config => .ok (.config ty)
  | .funcCall call => .ok (.funcCall call)

/-- A field that says nothing: an argument of a prototype, an error elsewhere. -/
def computeRest (field : Field) (isPrototype : Bool) : Except MacroError (InjectableType E) :=
  if isPrototype then .ok (.prototypeArg field.ty)
  else
    match field.ident with
    | none => .error injectErrorTip
    | some fieldName => .error (.message (fieldName ++
        " field missing inject definition, expected #[inject(component|config|func(args))]"))

def computeType (syn : InjectSyn E) (field : Field) (isPrototype : Bool) :
    Except MacroError (InjectableType E) :=
  match field.ty.typePath with
  | none => computeRest field isPrototype
  | some ty =>
    match field.attrs.find? fun attr => attr.path.isIdent "inject" with
    | some injectAttr =>
      match injectAttr.content with
      | .list _ tokens =>
        match parseAll (injectableAttr syn) tokens with
        | .ok attr => attr.makeType ty
        | .error e => .error e
      | _ => .error invalidInject
    | none =>
      match ty.segments.getLast? with
      | none => .error injectErrorTip
      | some (.mk typeName arguments) =>
        if typeName = "LazyComponent" then (getArgumentType arguments).map .lazyComponent
        else if typeName = "ComponentRef" then (getArgumentType arguments).map .componentRef
        else if typeName = "ConfigRef" then (getArgumentType arguments).map .configRef
        else if isPrototype = false ∧ typeName = "Option" then .ok .option
        else computeRest field isPrototype

def Injectable.new (syn : InjectSyn E) (isPrototype : Bool) (field : Field) :
    Except MacroError (Injectable E) :=
  match computeType syn field isPrototype with
  | .error e => .error e
  | .ok ty =>
    match field.ident with
    | none => .error injectErrorTip
    | some fieldName => .ok { isPrototype := isPrototype, ty := ty, fieldName := fieldName }

/-! ## The attribute of the struct -/

inductive ServiceAttr
  | grpc (server : String)
  | prototype (build : String)
deriving DecidableEq, Repr

/-- The keys read so far. -/
structure ServiceKeys where
  grpc : Option String
  prototype : Option String
deriving DecidableEq, Repr

def onlyOne : MacroError := .message "Only one of `grpc` or `prototype` is allowed"

/-- `key = "value"`. -/
def keyWithValue (syn : InjectSyn E) (keys : ServiceKeys) (ident value : String) :
    Except MacroError ServiceKeys :=
  if ident = "grpc" then
    if keys.grpc.isSome || keys.prototype.isSome then .error onlyOne
    else if syn.isPath value then .ok { keys with grpc := some value }
    else .error .syn
  else if ident = "prototype" then
    if keys.prototype.isSome || keys.grpc.isSome then .error onlyOne
    else .ok { keys with prototype := some value }
  else .error (.message ("Unknown key `" ++ ident ++
    "` in #[service(...)], expected `grpc` or `prototype`"))

/-- A key alone; the default name of the constructor is `build`. -/
def flagKey (keys : ServiceKeys) (ident : String) : Except MacroError ServiceKeys :=
  if ident = "prototype" then
    if keys.prototype.isSome || keys.grpc.isSome then .error onlyOne
    else .ok { keys with prototype := some "build" }
  else if ident = "grpc" then .error (.message "`grpc` must have a value like `grpc = \"...\"`")
  else .error (.message ("Unknown key `" ++ ident ++ "` in #[service(...)]"))

/-- One turn of the loop, up to the comma. -/
def serviceKey (syn : InjectSyn E) (keys : ServiceKeys) : Parse ServiceKeys
  | .ident ident :: rest =>
    if ident ∈ keywords then .error .syn
    else
      match rest with
      | .punct '=' :: rest =>
        match litStr rest with
        | .error e => .error e
        | .ok (value, rest) => (keyWithValue syn keys ident value).map fun keys => (keys, rest)
      | rest => (flagKey keys ident).map fun keys => (keys, rest)
  | _ => .error .syn

def skipComma : TokenStream → TokenStream
  | .punct ',' :: rest => rest
  | rest => rest

theorem skipComma_le (tokens : TokenStream) : (skipComma tokens).length ≤ tokens.length := by
  unfold skipComma
  split
  · simp
  · exact Nat.le_refl _

theorem litStr_shorter {tokens rest : TokenStream} {value : String}
    (h : litStr tokens = .ok (value, rest)) : tokens = .str value :: rest := by
  unfold litStr at h
  split at h
  · cases h
    rfl
  · cases h

theorem map_pair_ok {α β ε : Type} {x : Except ε α} {b b' : β} {a : α}
    (h : (x.map fun a => (a, b)) = .ok (a, b')) : x = .ok a ∧ b = b' := by
  cases x with
  | error e => cases h
  | ok a' =>
      cases h
      exact ⟨rfl, rfl⟩

theorem keyWithValue_ok {syn : InjectSyn E} {keys keys' : ServiceKeys} {ident value : String}
    (h : keyWithValue syn keys ident value = .ok keys') :
    keys = ⟨none, none⟩ ∧
      (ident = "grpc" ∧ syn.isPath value = true ∧ keys' = ⟨some value, none⟩ ∨
        ident = "prototype" ∧ keys' = ⟨none, some value⟩) := by
  obtain ⟨grpc, prototype⟩ := keys
  unfold keyWithValue at h
  cases grpc <;> cases prototype <;> split_ifs at h <;> simp_all

theorem flagKey_ok {keys keys' : ServiceKeys} {ident : String}
    (h : flagKey keys ident = .ok keys') :
    keys = ⟨none, none⟩ ∧ ident = "prototype" ∧ keys' = ⟨none, some "build"⟩ := by
  obtain ⟨grpc, prototype⟩ := keys
  unfold flagKey at h
  cases grpc <;> cases prototype <;> split_ifs at h <;> simp_all

/-- The ways in which a turn goes on. -/
theorem serviceKey_cases {syn : InjectSyn E} {keys keys' : ServiceKeys}
    {tokens rest : TokenStream} (h : serviceKey syn keys tokens = .ok (keys', rest)) :
    keys = ⟨none, none⟩ ∧
    ((∃ path, tokens = .ident "grpc" :: .punct '=' :: .str path :: rest ∧
        syn.isPath path = true ∧ keys' = ⟨some path, none⟩) ∨
      (∃ name, tokens = .ident "prototype" :: .punct '=' :: .str name :: rest ∧
        keys' = ⟨none, some name⟩) ∨
      (tokens = .ident "prototype" :: rest ∧ keys' = ⟨none, some "build"⟩)) := by
  unfold serviceKey at h
  split at h
  · next ident rest' =>
      split at h
      · cases h
      · split at h
        · next rest' =>
            split at h
            · cases h
            · next value rest' hvalue =>
                obtain ⟨hkey, rfl⟩ := map_pair_ok h
                rw [litStr_shorter hvalue]
                obtain ⟨hempty, ⟨rfl, hpath, hkeys⟩ | ⟨rfl, hkeys⟩⟩ := keyWithValue_ok hkey
                · exact ⟨hempty, .inl ⟨value, rfl, hpath, hkeys⟩⟩
                · exact ⟨hempty, .inr (.inl ⟨value, rfl, hkeys⟩)⟩
        · obtain ⟨hkey, rfl⟩ := map_pair_ok h
          obtain ⟨hempty, rfl, hkeys⟩ := flagKey_ok hkey
          exact ⟨hempty, .inr (.inr ⟨rfl, hkeys⟩)⟩
  · cases h

theorem serviceKey_shorter {syn : InjectSyn E} {keys keys' : ServiceKeys}
    {tokens rest : TokenStream} (h : serviceKey syn keys tokens = .ok (keys', rest)) :
    rest.length < tokens.length := by
  obtain ⟨_, ⟨path, htokens, _⟩ | ⟨name, htokens, _⟩ | ⟨htokens, _⟩⟩ := serviceKey_cases h
  · rw [htokens]
    simp only [List.length_cons]
    omega
  · rw [htokens]
    simp only [List.length_cons]
    omega
  · rw [htokens]
    simp only [List.length_cons]
    omega

/-- The loop while the stream is not empty, and the match after it.  Every turn reads a token. -/
def serviceKeys (syn : InjectSyn E) (keys : ServiceKeys) (tokens : TokenStream) :
    Except MacroError ServiceAttr :=
  match tokens with
  | [] =>
    match keys.grpc, keys.prototype with
    | some path, none => .ok (.grpc path)
    | none, some name => .ok (.prototype name)
    | _, _ => .error (.message "Expected at least one of `grpc` or `prototype`")
  | token :: rest =>
    match _h : serviceKey syn keys (token :: rest) with
    | .error e => .error e
    | .ok (keys, rest') => serviceKeys syn keys (skipComma rest')
termination_by tokens.length
decreasing_by
  have := serviceKey_shorter _h
  have := skipComma_le rest'
  omega

def parseServiceAttr (syn : InjectSyn E) (tokens : TokenStream) : Except MacroError ServiceAttr :=
  serviceKeys syn { grpc := none, prototype := none } tokens

/-- `attr.parse_args_with(Self::parse_service_attr)`. -/
def parseServiceArgs (syn : InjectSyn E) (attr : Attribute) : Except MacroError ServiceAttr :=
  match attr.content with
  | .list _ tokens => parseServiceAttr syn tokens
  | _ => .error .syn

/-! ## The service -/

inductive Shape
  | struct (fields : List Field)
  | other

structure DeriveInput where
  ident : String
  attrs : List Attribute
  data : Shape

structure ServiceInput (E : Type) where
  ident : String
  attr : Option ServiceAttr
  fields : List (Injectable E)

def ServiceAttr.isPrototype : Option ServiceAttr → Bool
  | some (.prototype _) => true
  | _ => false

/-- The fields in the order of their kinds; `sort_by_key` is stable. -/
def sortedFields (fields : List (Injectable E)) : List (Injectable E) :=
  fields.insertionSort fun f g => f.ty.order ≤ g.ty.order

def injectables (syn : InjectSyn E) (isPrototype : Bool) :
    Shape → Except MacroError (List (Injectable E))
  | .struct fields => (fields.mapM (Injectable.new syn isPrototype)).map sortedFields
  | .other => .error injectErrorTip

def ServiceInput.new (syn : InjectSyn E) (input : DeriveInput) :
    Except MacroError (ServiceInput E) :=
  let serviceAttr := (input.attrs.find? fun attr => attr.path.isIdent "service").bind
    fun attr => (parseServiceArgs syn attr).toOption
  match injectables syn (ServiceAttr.isPrototype serviceAttr) input.data with
  | .error e => .error e
  | .ok fields => .ok { ident := input.ident, attr := serviceAttr, fields := fields }

inductive DeriveError
  | err (e : MacroError)
  | panic (text : String)
deriving DecidableEq, Repr

/-- The code that is generated: a constructor of a prototype, or a service with a registrar,
which adds the gRPC server as well or the service alone. -/
inductive Generated (E : Type)
  | prototype (ident fnName : String) (fields : List (Injectable E))
  | grpc (ident server : String) (fields : List (Injectable E))
  | component (ident : String) (fields : List (Injectable E))

def ServiceInput.toTokens (syn : InjectSyn E) (service : ServiceInput E) :
    Except DeriveError (Generated E) :=
  match service.attr with
  | some (.prototype build) =>
    if syn.isIdent build then .ok (.prototype service.ident build service.fields)
    else .error (.panic build)
  | some (.grpc server) => .ok (.grpc service.ident server service.fields)
  | none => .ok (.component service.ident service.fields)

def expandServiceDerive (syn : InjectSyn E) (input : DeriveInput) :
    Except DeriveError (Generated E) :=
  match ServiceInput.new syn input with
  | .error e => .error (.err e)
  | .ok service => service.toTokens syn

end

namespace Sample

/-- Paths of one identifier, and no calls. -/
def injectSyn : InjectSyn Unit where
  parsePath
    | .ident name :: rest => .ok ({ leadingColon := false, segments := [.mk name .none] }, rest)
    | _ => .error .syn
  parseExprCall := fun _ => .error .syn
  isPath := fun text => text = "user_server::UserServer"
  isIdent := fun text => text = "build"

end Sample

end Summer.Macros
