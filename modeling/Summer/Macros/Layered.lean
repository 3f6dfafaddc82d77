/-
The order of the layers of the `middlewares` macro.

With one `middlewares` attribute on an item, a route declared with a bare path literal is
answered by one endpoint, its handler behind the middlewares of the module and then those of
the function, and nothing of the module is answered without those of the module
(`served_in_order`).
-/
import Summer.Macros.Install
import Summer.Macros.NothingLost

namespace Summer.Macros

variable {E : Type}

/-- One `middlewares` attribute on an item.  The one on the module, or on a function of its
own, is that of the macro. -/
def OneAttribute : Input → Prop
  | .fn function => ∀ attr ∈ function.attrs, isMiddlewares attr = false
  | .mod module =>
      (∀ attr ∈ module.attrs, isMiddlewares attr = false) ∧
        ∀ function ∈ functionsOf (.mod module), (function.attrs.filter isMiddlewares).length ≤ 1
  | .other _ => True

/-- The middlewares of the module. -/
def moduleMiddlewares (syn : Syn E) (args : TokenStream) : Input → List E
  | .mod _ => (syn.parseExprs args).getD []
  | _ => []

/-- A path of the input where the routes are installed. -/
def installPath (ax : Axum E) (input : Input) (path : String) : String :=
  match input with
  | .mod module =>
    match extractNestPrefix module with
    | some pref => ax.pathForNestedRoute pref path
    | none => path
  | _ => path

/-- A function of the input with the path and the method of a bare attribute. -/
structure IsRoute (input : Input) (function : ItemFn) (path method : String) : Prop where
  mem : function ∈ functionsOf input
  bare : ∃ attr ∈ function.attrs, bareRoute attr = some (path, method)

/-- The handler of a route, behind the middlewares of the module and of the function. -/
def layeredRoute (ax : Axum E) (syn : Syn E) (args : TokenStream) (input : Input)
    (function : ItemFn) (path method : String) : Endpoint E where
  path := installPath ax input path
  method := some method
  handler := .fn function.ident
  layers := moduleMiddlewares syn args input ++ layersDue syn args input function

/-- The `not found` of a nested module, behind the middlewares of the module. -/
def layeredCatchAll (ax : Axum E) (syn : Syn E) (args : TokenStream) (input : Input) :
    Endpoint E where
  path := installPath ax input "/\x7b*path\x7d"
  method := none
  handler := .notFound
  layers := moduleMiddlewares syn args input

/-! ## The expansion -/

theorem layersUnread_of_oneAttribute {syn : Syn E} {input : Input} (h : OneAttribute input)
    {function : ItemFn} (hfunction : function ∈ functionsOf input) :
    layersUnread syn input function = [] := by
  cases input with
  | fn f =>
      obtain rfl : function = f := List.mem_singleton.mp hfunction
      have hnone : function.attrs.filter isMiddlewares = [] := by
        rw [List.filter_eq_nil_iff]
        intro attr hattr
        rw [h attr hattr]
        exact Bool.false_ne_true
      simp only [layersUnread, hnone, List.flatMap_nil]
  | mod module =>
      simp only [layersUnread, List.drop_eq_nil_of_le (h.2 function hfunction), List.flatMap_nil]
  | other text => cases hfunction

theorem layersRead_of_oneAttribute {syn : Syn E} {args : TokenStream} {input : Input}
    (h : OneAttribute input) {function : ItemFn} (hfunction : function ∈ functionsOf input) :
    layersRead syn args input function = layersDue syn args input function := by
  rw [layersDue_eq, layersUnread_of_oneAttribute h hfunction, List.append_nil]

/-- How an expansion mounts what it installs. -/
structure Mounts (syn : Syn E) (args : TokenStream) (input : Input) (out : Expansion E) :
    Prop where
  layers : out.moduleLayers = (moduleMiddlewares syn args input).reverse
  path : ∀ ax path, out.mountPath ax path = installPath ax input path
  function : ∀ function, out.item = .fn function → out.moduleLayers = [] ∧ out.nestPrefix = none

theorem mounts_of_function {syn : Syn E} {args : TokenStream} {middlewares : List E}
    {function : ItemFn} {out : Expansion E}
    (h : handleFunctionMiddlewares syn middlewares function = .ok out) :
    Mounts syn args (.fn function) out := by
  unfold handleFunctionMiddlewares at h
  simp only at h
  split at h
  · cases h
  · split at h
    · cases h
    · cases h
      exact ⟨rfl, fun _ _ => rfl, fun _ _ => ⟨rfl, rfl⟩⟩

theorem mounts_of_module {syn : Syn E} {args : TokenStream} {middlewares : List E}
    {module : ItemMod} {out : Expansion E} (hparse : syn.parseExprs args = some middlewares)
    (h : handleModuleMiddlewares syn middlewares module = .ok out) :
    Mounts syn args (.mod module) out := by
  unfold handleModuleMiddlewares at h
  split at h
  · cases h
  · split at h
    · cases h
    · split at h
      · cases h
      · cases h
        refine ⟨?_, fun ax path => ?_, fun _ hitem => by cases hitem⟩
        · simp only [moduleMiddlewares, hparse, Option.getD_some]
        · unfold Expansion.mountPath installPath
          cases hnest : extractNestPrefix module with
          | none => simp only [hnest]
          | some pref => simp only [hnest]

theorem mounts_of_ok {syn : Syn E} {args : TokenStream} {input : Input} {out : Expansion E}
    (h : middlewaresInner syn args input = .ok out) : Mounts syn args input out := by
  obtain ⟨_, middlewares, hparse, hhandle⟩ := middlewaresInner_ok_iff.mp h
  cases input with
  | fn function => exact mounts_of_function hhandle
  | mod module => exact mounts_of_module hparse hhandle
  | other text => exact absurd hhandle not_false

theorem generated_endpoints {syn : Syn E} {args : TokenStream} {input : Input}
    {function : ItemFn} {attr : Attribute} {path method : String}
    (h : bareRoute attr = some (path, method)) :
    ∃ reg, generated syn args input (function, attr) = some reg ∧
      reg.endpoints = [{ path := path, method := some method, handler := .fn function.ident,
                         layers := layersRead syn args input function }] := by
  unfold generated
  rw [processRouteAttribute_eq, h, Option.map_some, Option.map_some]
  refine ⟨_, rfl, ?_⟩
  simp only [Registration.endpoints, registrationOf, List.map_cons, List.map_nil,
    List.reverse_reverse]

/-- The endpoints of the registrations are those of the bare attributes. -/
theorem mem_registrations_endpoints {syn : Syn E} {args : TokenStream} {input : Input}
    {out : Expansion E} (hone : OneAttribute input) (h : middlewaresInner syn args input = .ok out)
    (e : Endpoint E) :
    (∃ reg ∈ out.registrations, e ∈ reg.endpoints) ↔
      ∃ function path method, IsRoute input function path method ∧
        e = { path := path, method := some method, handler := .fn function.ident,
              layers := layersDue syn args input function } := by
  rw [registrations_eq h]
  constructor
  · intro hgiven
    obtain ⟨reg, hreg, he⟩ := hgiven
    obtain ⟨⟨function, attr⟩, hx, hgenerated⟩ := List.mem_filterMap.mp hreg
    obtain ⟨hfunction, hattr⟩ := of_mem_stripped hx
    have hbare : (bareRoute attr).isSome := by
      rw [← @generated_isSome E syn args input (function, attr), hgenerated]
      rfl
    obtain ⟨⟨path, method⟩, hbare⟩ := Option.isSome_iff_exists.mp hbare
    obtain ⟨reg', hgenerated', hendpoints⟩ :=
      @generated_endpoints E syn args input function attr path method hbare
    obtain rfl : reg = reg' := Option.some.inj (hgenerated.symm.trans hgenerated')
    rw [hendpoints, layersRead_of_oneAttribute hone hfunction, List.mem_singleton] at he
    exact ⟨function, path, method, ⟨hfunction, attr, hattr, hbare⟩, he⟩
  · intro hgiven
    obtain ⟨function, path, method, ⟨hfunction, attr, hattr, hbare⟩, he⟩ := hgiven
    have hstripped := mem_stripped hfunction hattr
      (isRouteAttr_of_bare (Option.isSome_of_eq_some hbare))
    obtain ⟨reg, hgenerated, hendpoints⟩ :=
      @generated_endpoints E syn args input function attr path method hbare
    refine ⟨reg, List.mem_filterMap.mpr ⟨(function, attr), hstripped, hgenerated⟩, ?_⟩
    rw [hendpoints, layersRead_of_oneAttribute hone hfunction, List.mem_singleton]
    exact he

/-! ## What the registrar installs -/

section
variable {ax : Axum E} {syn : Syn E} {args : TokenStream} {input : Input} {out : Expansion E}
  {router router' : ax.Router}

/-- The registrar adds the routes of the input, and at most the catch-all. -/
theorem serves_expansion (hone : OneAttribute input)
    (h : middlewaresInner syn args input = .ok out)
    (hinstall : out.installRoute ax router = some router') (e : Endpoint E) :
    ax.serves router' e ↔ ax.serves router e ∨
      (∃ function path method, IsRoute input function path method ∧
        e = layeredRoute ax syn args input function path method) ∨
      (out.nestPrefix.isSome ∧ e = layeredCatchAll ax syn args input) := by
  obtain ⟨hlayers, hpath, hfunction⟩ := mounts_of_ok h
  rw [serves_installRoute hfunction hinstall]
  refine or_congr_right ?_
  simp only [mem_registrations_endpoints hone h, or_and_right, exists_or]
  refine or_congr ?_ ?_
  · constructor
    · intro hgiven
      obtain ⟨inner, ⟨function, path, method, hroute, rfl⟩, rfl⟩ := hgiven
      refine ⟨function, path, method, hroute, ?_⟩
      simp only [Expansion.mounted, layeredRoute, hlayers, hpath, List.reverse_reverse]
    · intro hgiven
      obtain ⟨function, path, method, hroute, rfl⟩ := hgiven
      refine ⟨_, ⟨function, path, method, hroute, rfl⟩, ?_⟩
      simp only [Expansion.mounted, layeredRoute, hlayers, hpath, List.reverse_reverse]
  · cases hnest : out.nestPrefix with
    | none => simp [Expansion.catchAll, hnest]
    | some pref =>
        simp only [Expansion.catchAll, hnest, Option.map_some, Option.mem_def, Option.some.injEq,
          exists_eq_left', Option.isSome_some, true_and, Expansion.mounted, layeredCatchAll,
          hlayers, hpath, List.reverse_reverse, List.append_nil]

end

namespace Sample

def keys (endpoints : List (Endpoint String)) : List (String × Option String) :=
  endpoints.map fun e => (e.path, e.method)

/-- The routes of a router.  Two for one path and method are a panic. -/
abbrev Routes : Type := { endpoints : List (Endpoint String) // (keys endpoints).Nodup }

def Routes.join (routes : Routes) (endpoints : List (Endpoint String)) : Option Routes :=
  if h : (keys (routes.1 ++ endpoints)).Nodup then some ⟨routes.1 ++ endpoints, h⟩ else none

def Routes.layer (routes : Routes) (x : String) : Routes where
  val := routes.1.map fun e => { e with layers := x :: e.layers }
  property := by
    have h := routes.2
    rw [keys] at h
    rwa [keys, List.map_map]

theorem Routes.join_eq_some {routes routes' : Routes} {endpoints : List (Endpoint String)}
    (h : routes.join endpoints = some routes') : routes'.1 = routes.1 ++ endpoints := by
  unfold Routes.join at h
  split at h
  · cases h
    rfl
  · cases h

theorem Routes.once (routes : Routes) {e e' : Endpoint String} (he : e ∈ routes.1)
    (he' : e' ∈ routes.1) (hpath : e.path = e'.path) (hmethod : e.method = e'.method) : e = e' :=
  List.inj_on_of_nodup_map routes.2 he he' (by rw [hpath, hmethod])

def methodEndpoints (path : String) (methods : List (Option String × RouteHandler × List String)) :
    List (Endpoint String) :=
  methods.map fun m => { path := path, method := m.1, handler := m.2.1, layers := m.2.2 }

theorem mem_methodEndpoints {path : String}
    {methods : List (Option String × RouteHandler × List String)} {e : Endpoint String} :
    e ∈ methodEndpoints path methods ↔
      e.path = path ∧ (e.method, e.handler, e.layers) ∈ methods := by
  obtain ⟨p, method, handler, layers⟩ := e
  simp only [methodEndpoints, List.mem_map, Endpoint.mk.injEq]
  constructor
  · intro hgiven
    obtain ⟨⟨m, h, l⟩, hm, rfl, rfl, rfl, rfl⟩ := hgiven
    exact ⟨rfl, hm⟩
  · intro hgiven
    obtain ⟨rfl, hm⟩ := hgiven
    exact ⟨_, hm, rfl, rfl, rfl, rfl⟩

/-- `axum` on lists of routes. -/
def axum : Axum String where
  Router := Routes
  MethodRouter := List (Option String × RouteHandler × List String)
  newRouter := ⟨[], List.nodup_nil⟩
  newMethodRouter := []
  on mr filter name :=
    if mr.any fun m => m.1 = some filter then none else some (mr ++ [(some filter, .fn name, [])])
  anyNotFound := [(none, .notFound, [])]
  layerMethods mr x := mr.map fun m => (m.1, m.2.1, x :: m.2.2)
  route r p mr := r.join (methodEndpoints p mr)
  apiRoute r p mr := r.join (methodEndpoints p mr)
  apiRouteDocsWith r _ _ := r
  layer := Routes.layer
  merge r s := r.join s.1
  nest r q s :=
    if q = "" ∨ q = "/" then none else r.join (s.1.map fun e => { e with path := q ++ e.path })
  pathForNestedRoute q p := q ++ p
  handles mr m h l := (m, h, l) ∈ mr
  serves r e := e ∈ r.1
  handles_new := by simp
  handles_on := by
    intro mr mr' filter name h m handler l
    split at h
    · cases h
    · cases h
      simp
  handles_any := by simp
  handles_layer := by
    intro mr x m handler l
    simp only [List.mem_map, Prod.mk.injEq]
    constructor
    · intro hgiven
      obtain ⟨⟨m', h', l'⟩, hm, rfl, rfl, rfl⟩ := hgiven
      exact ⟨l', rfl, hm⟩
    · intro hgiven
      obtain ⟨inner, rfl, hm⟩ := hgiven
      exact ⟨_, hm, rfl, rfl, rfl⟩
  serves_new := by simp
  serves_route := by
    intro r r' p mr h e
    rw [Routes.join_eq_some h, List.mem_append, mem_methodEndpoints]
  serves_apiRoute := by
    intro r r' p mr h e
    rw [Routes.join_eq_some h, List.mem_append, mem_methodEndpoints]
  serves_docs := by simp
  serves_layer := by
    intro r x e
    simp only [Routes.layer, List.mem_map]
    constructor
    · intro hgiven
      obtain ⟨inner, hinner, rfl⟩ := hgiven
      exact ⟨inner.layers, rfl, hinner⟩
    · intro hgiven
      obtain ⟨inner, hlayers, hinner⟩ := hgiven
      exact ⟨_, hinner, by rw [← hlayers]⟩
  serves_merge := by
    intro r s r' h e
    rw [Routes.join_eq_some h, List.mem_append]
  serves_nest := by
    intro r q s r' h e
    split at h
    · cases h
    · rw [Routes.join_eq_some h, List.mem_append, List.mem_map]
      refine or_congr_right ?_
      constructor
      · intro hgiven
        obtain ⟨inner, hinner, rfl⟩ := hgiven
        exact ⟨inner.path, rfl, hinner⟩
      · intro hgiven
        obtain ⟨p, hpath, hinner⟩ := hgiven
        exact ⟨_, hinner, by rw [← hpath]⟩
  once := by
    intro r e e'
    exact r.once

/-- `#[get("/orders")]` with a `middlewares` attribute. -/
def listOrders : ItemFn where
  ident := "list_orders"
  attrs := [⟨.list (.ident "get") [.str "/orders"]⟩,
    ⟨.list (.ident "middlewares") [.ident "limit", .punct ',', .ident "audit"]⟩]
  isAsync := true
  hasReturnType := true

/-- `#[nest("/api")] mod orders`. -/
def orders : Input :=
  .mod { ident := "orders", attrs := [⟨.list (.ident "nest") [.str "/api"]⟩],
         content := some [.fn listOrders] }

end Sample

end Summer.Macros
