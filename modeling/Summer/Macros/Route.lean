/-
The routing macros (`summer-macros/src/route.rs`): their arguments, and the routes each
registers when it stands alone on a function.
-/
import Mathlib.Data.Finset.Image
import Summer.Macros.Syntax

namespace Summer.Macros

inductive Method
  | get
  | post
  | put
  | delete
  | head
  | options
  | trace
  | patch
deriving DecidableEq, Repr

namespace Method

def all : List Method := [.get, .post, .put, .delete, .head, .options, .trace, .patch]

/-- The name of the method in a `method` attribute and in `MethodFilter`. -/
def upper : Method → String
  | .get => "GET"
  | .post => "POST"
  | .put => "PUT"
  | .delete => "DELETE"
  | .head => "HEAD"
  | .options => "OPTIONS"
  | .trace => "TRACE"
  | .patch => "PATCH"

def lower : Method → String
  | .get => "get"
  | .post => "post"
  | .put => "put"
  | .delete => "delete"
  | .head => "head"
  | .options => "options"
  | .trace => "trace"
  | .patch => "patch"

def parse (method : String) : Except MacroError Method :=
  match all.find? fun m => decide (m.upper = method) with
  | some m => .ok m
  | none => .error (.message ("HTTP method must be uppercase: `" ++ method ++ "`"))

def fromPath (method : Path) : Option Method :=
  all.find? fun m => method.isIdent m.lower

theorem fromPath_eq_some {p : Path} {m : Method} (h : fromPath p = some m) :
    p = .ident m.lower := by
  unfold fromPath at h
  have hident := List.find?_some h
  exact Path.isIdent_iff.mp hident

end Method

structure RouteArgs where
  path : String
  options : List Meta
deriving DecidableEq, Repr

def RouteArgs.parse {E : Type} (syn : Syn E) : Parse RouteArgs := fun input =>
  match litStr input with
  | .error e =>
    .error (.combine e
      (.message "invalid route definition, expected #[<method>(\"<path>\")]"))
  | .ok (path, rest) =>
    match rest with
    | .punct ',' :: options =>
      if literalNext options then
        .error (.message "Multiple paths specified! There should be only one.")
      else
        match syn.parseMetas options with
        | some metas => .ok ({ path := path, options := metas }, [])
        | none => .error .syn
    -- without a comma no options are expected
    | _ => .ok ({ path := path, options := [] }, rest)

structure Args where
  path : String
  methods : Finset Method
  debug : Bool
  transform : Option String
deriving DecidableEq

namespace Args

variable {E : Type}

/-- One turn of the loop over the options. -/
def addOption (syn : Syn E) (isRouteMacro : Bool) (args : Args) : Meta → Except MacroError Args
  | .path p =>
    if p.isIdent "debug" then
      .ok { args with debug := true }
    else
      .error (.message ("Unknown attribute `" ++ syn.pathText p ++
        "`; allowed: `method = \"METHOD\"`, `debug`"))
  | .nameValue p value =>
    if p.isIdent "method" then
      if isRouteMacro = false then
        .error (.message
          "HTTP method forbidden here; to handle multiple methods, use `route` instead")
      else
        match value with
        | .str lit =>
          match Method.parse lit with
          | .error e => .error e
          | .ok method =>
            if method ∈ args.methods then
              .error (.message ("HTTP method defined more than once: `" ++ lit ++ "`"))
            else
              .ok { args with methods := insert method args.methods }
        | .other _ => .error (.message "Attribute method expects literal string")
    else if p.isIdent "transform" then
      match value with
      | .str lit =>
        if syn.isExprPath lit then .ok { args with transform := some lit } else .error .syn
      | .other _ => .error (.message "transform expects string literal path")
    else
      .error (.message ("Unknown attribute `" ++ syn.pathText p ++
        "`; allowed: `method = \"METHOD\"`, `transform = \"path::to::fn\"`, `debug`"))
  | .list p _ =>
    .error (.message ("Unknown attribute `" ++ syn.pathText p ++
      "`; allowed: `method = \"METHOD\"`, `debug`"))

/-- `route` and `api_route` have no method of their own. -/
def new (syn : Syn E) (args : RouteArgs) (method : Option Method) : Except MacroError Args :=
  args.options.foldlM (addOption syn method.isNone)
    { path := args.path,
      methods := match method with
        | some m => {m}
        | none => ∅,
      debug := false,
      transform := none }

/-- `Args::new` with the check `Route::new` makes of the methods. -/
def checked (syn : Syn E) (args : RouteArgs) (method : Option Method) : Except MacroError Args :=
  match new syn args method with
  | .error e => .error e
  | .ok args =>
    if args.methods = ∅ then
      .error (.message "The #[route(..)] macro requires at least one `method` attribute")
    else
      .ok args

/-- The arguments of a routing macro, from its tokens. -/
def ofTokens (syn : Syn E) (method : Option Method) (tokens : TokenStream) :
    Except MacroError Args :=
  match parseAll (RouteArgs.parse syn) tokens with
  | .error e => .error e
  | .ok args => checked syn args method

end Args

structure Route where
  name : String
  args : List Args
  ast : ItemFn
  docAttributes : List Attribute
  debug : Bool
  openapi : Bool

namespace Route

variable {E : Type}

def docAttributesOf (attrs : List Attribute) : List Attribute :=
  attrs.filter fun attr => attr.path.isIdent "doc"

def noReturnType : MacroError :=
  .message "Function has no return type. Cannot be used as handler"

def new (syn : Syn E) (args : RouteArgs) (ast : ItemFn) (method : Option Method)
    (openapi : Bool) : Except MacroError Route :=
  match Args.checked syn args method with
  | .error e => .error e
  | .ok args =>
    if ast.hasReturnType = false then
      .error noReturnType
    else if ast.isAsync = false then
      .error (.message "only support async fn")
    else
      .ok { name := ast.ident,
            args := [args],
            ast := ast,
            docAttributes := docAttributesOf ast.attrs,
            debug := args.debug,
            openapi := openapi }

/-- Unlike `new`, this takes functions that are not `async`. -/
def multiple (args : List Args) (ast : ItemFn) (openapi : Bool) : Except MacroError Route :=
  if ast.hasReturnType = false then
    .error noReturnType
  else
    .ok { name := ast.ident,
          args := args,
          ast := ast,
          docAttributes := docAttributesOf ast.attrs,
          debug := args.any Args.debug,
          openapi := openapi }

end Route

section
variable {E : Type}

/-- `get` to `patch` and their `_api` forms, `route` and `api_route`. -/
def withMethod (syn : Syn E) (method : Option Method) (args : TokenStream) (ast : ItemFn)
    (openapi : Bool) : Except MacroError Route :=
  match parseAll (RouteArgs.parse syn) args with
  | .error e => .error e
  | .ok args => Route.new syn args ast method openapi

/-- The method attributes under `routes` and `api_routes`, with their methods. -/
def methodAttrs (attrs : List Attribute) : List (Method × Attribute) :=
  attrs.filterMap fun attr => (Method.fromPath attr.path).map fun method => (method, attr)

def methodArgs (syn : Syn E) (attr : Method × Attribute) : Except MacroError Args :=
  match attr.2.parseArgs (RouteArgs.parse syn) with
  | .error e => .error e
  | .ok args => Args.new syn args (some attr.1)

/-- The arguments that `routes` and `api_routes` collect. -/
def methodsArgs (syn : Syn E) (attrs : List Attribute) : Except MacroError (List Args) :=
  match (methodAttrs attrs).mapM (methodArgs syn) with
  | .error e => .error e
  | .ok [] =>
    .error (.message "The #[routes] macro requires at least one `#[<method>(..)]` attribute.")
  | .ok (args :: rest) => .ok (args :: rest)

/-- `routes` and `api_routes`; their own arguments are not looked at. -/
def withMethods (syn : Syn E) (ast : ItemFn) (openapi : Bool) : Except MacroError Route :=
  match methodsArgs syn ast.attrs with
  | .error e => .error e
  | .ok args =>
    Route.multiple args
      { ast with attrs := ast.attrs.filter fun attr => (Method.fromPath attr.path).isNone }
      openapi

/-- What a routing macro does: `with_method`, or `with_methods`. -/
inductive RoutingMacro
  | one (method : Option Method)
  | many
deriving DecidableEq, Repr

/-- The routing macros that `lib.rs` exports, and whether they document the routes. -/
def routingMacros : List (String × RoutingMacro × Bool) :=
  [("route", .one none, false),
    ("api_route", .one none, true),
    ("routes", .many, false),
    ("api_routes", .many, true),
    ("get", .one (some .get), false),
    ("post", .one (some .post), false),
    ("put", .one (some .put), false),
    ("delete", .one (some .delete), false),
    ("head", .one (some .head), false),
    ("options", .one (some .options), false),
    ("trace", .one (some .trace), false),
    ("patch", .one (some .patch), false),
    ("get_api", .one (some .get), true),
    ("post_api", .one (some .post), true),
    ("put_api", .one (some .put), true),
    ("delete_api", .one (some .delete), true),
    ("head_api", .one (some .head), true),
    ("options_api", .one (some .options), true),
    ("trace_api", .one (some .trace), true),
    ("patch_api", .one (some .patch), true)]

def routingMacro (attr : Attribute) : Option RoutingMacro :=
  (routingMacros.find? fun d => attr.path.isIdent d.1).map fun d => d.2.1

/-- The tokens an attribute macro is called with. -/
def Attribute.macroArgs (attr : Attribute) : Option TokenStream :=
  match attr.content with
  | .path _ => some []
  | .list _ tokens => some tokens
  | .nameValue _ _ => none

/-- The path and the methods that a routing attribute with arguments of its own registers
when it stands alone, if its macro accepts them. -/
def acceptedRoute (syn : Syn E) (attr : Attribute) : Option (String × Finset Method) :=
  match routingMacro attr, attr.macroArgs with
  | some (.one method), some tokens =>
    match Args.ofTokens syn method tokens with
    | .ok args => some (args.path, args.methods)
    | .error _ => none
  | _, _ => none

/-! ## Arguments that are one string literal -/

theorem routeArgs_parse_literal (syn : Syn E) (path : String) :
    parseAll (RouteArgs.parse syn) [.str path] = .ok { path := path, options := [] } := rfl

theorem Args.ofTokens_literal (syn : Syn E) (method : Method) (path : String) :
    Args.ofTokens syn (some method) [.str path] =
      .ok { path := path, methods := {method}, debug := false, transform := none } := by
  simp only [Args.ofTokens, routeArgs_parse_literal, Args.checked, Args.new, List.foldlM_nil]
  rfl

/-- Each option keeps the path and, for a macro with a method, the methods. -/
theorem Args.addOption_method {syn : Syn E} {args args' : Args} {option : Meta}
    (h : Args.addOption syn false args option = .ok args') :
    args'.path = args.path ∧ args'.methods = args.methods := by
  unfold Args.addOption at h
  grind

theorem Args.foldlM_addOption_method {syn : Syn E} {options : List Meta} {args args' : Args}
    (h : options.foldlM (Args.addOption syn false) args = .ok args') :
    args'.path = args.path ∧ args'.methods = args.methods := by
  induction options generalizing args with
  | nil =>
      cases h
      exact ⟨rfl, rfl⟩
  | cons option rest ih =>
      rw [List.foldlM_cons] at h
      cases hone : Args.addOption syn false args option with
      | error e =>
          rw [hone] at h
          cases h
      | ok args1 =>
          rw [hone] at h
          obtain ⟨hpath, hmethods⟩ := Args.addOption_method hone
          obtain ⟨hpath', hmethods'⟩ := ih h
          exact ⟨hpath'.trans hpath, hmethods'.trans hmethods⟩

/-- A macro with a method registers for this method only. -/
theorem Args.new_method {syn : Syn E} {args : RouteArgs} {method : Method} {out : Args}
    (h : Args.new syn args (some method) = .ok out) :
    out.path = args.path ∧ out.methods = {method} :=
  Args.foldlM_addOption_method h

theorem Args.checked_eq_new {syn : Syn E} {args : RouteArgs} {method : Method} {out : Args}
    (h : Args.new syn args (some method) = .ok out) :
    Args.checked syn args (some method) = .ok out := by
  have hmethods := (Args.new_method h).2
  rw [Args.checked, h]
  simp only [hmethods, Finset.singleton_ne_empty, if_false]

end

end Summer.Macros
