/-
The generated `install_route` of the `middlewares` macro (`summer-macros/src/middlewares.rs`).

The code is written against the routers of `axum` and `aide`, of which is assumed what the
macro relies on (`Axum`): what a router serves after each call.  Every shape of the code for a
route adds the endpoints of its registration (`serves_installInModule`,
`serves_installOnMethods`).
-/
import Mathlib.Data.List.Basic
import Summer.Macros.Middlewares

namespace Summer.Macros

inductive RouteHandler
  | fn (name : String)
  | notFound
deriving DecidableEq, Repr

/-- What answers the requests with a path and a method: a handler behind its layers, the
outermost first.  Without a method it answers any. -/
structure Endpoint (E : Type) where
  path : String
  method : Option String
  handler : RouteHandler
  layers : List E
deriving DecidableEq

/-- What is used of `axum`, and of `aide` on top of it.  A call that panics gives no router.
`apiRoute` takes the method router through `ApiMethodRouter::from`. -/
structure Axum (E : Type) where
  Router : Type
  MethodRouter : Type
  newRouter : Router
  newMethodRouter : MethodRouter
  on : MethodRouter → String → String → Option MethodRouter
  anyNotFound : MethodRouter
  layerMethods : MethodRouter → E → MethodRouter
  route : Router → String → MethodRouter → Option Router
  apiRoute : Router → String → MethodRouter → Option Router
  apiRouteDocsWith : Router → String → String × OperationMetadata → Router
  layer : Router → E → Router
  merge : Router → Router → Option Router
  nest : Router → String → Router → Option Router
  pathForNestedRoute : String → String → String
  handles : MethodRouter → Option String → RouteHandler → List E → Prop
  serves : Router → Endpoint E → Prop
  handles_new : ∀ m h l, ¬ handles newMethodRouter m h l
  handles_on : ∀ {mr mr' filter name}, on mr filter name = some mr' → ∀ m h l,
    handles mr' m h l ↔ handles mr m h l ∨ (m = some filter ∧ h = .fn name ∧ l = [])
  handles_any : ∀ m h l, handles anyNotFound m h l ↔ m = none ∧ h = .notFound ∧ l = []
  handles_layer : ∀ mr x m h l, handles (layerMethods mr x) m h l ↔
    ∃ inner, l = x :: inner ∧ handles mr m h inner
  serves_new : ∀ e, ¬ serves newRouter e
  serves_route : ∀ {r r' p mr}, route r p mr = some r' → ∀ e,
    serves r' e ↔ serves r e ∨ (e.path = p ∧ handles mr e.method e.handler e.layers)
  serves_apiRoute : ∀ {r r' p mr}, apiRoute r p mr = some r' → ∀ e,
    serves r' e ↔ serves r e ∨ (e.path = p ∧ handles mr e.method e.handler e.layers)
  serves_docs : ∀ r p docs e, serves (apiRouteDocsWith r p docs) e ↔ serves r e
  serves_layer : ∀ r x e, serves (layer r x) e ↔
    ∃ inner, e.layers = x :: inner ∧ serves r { e with layers := inner }
  serves_merge : ∀ {r s r'}, merge r s = some r' → ∀ e, serves r' e ↔ serves r e ∨ serves s e
  serves_nest : ∀ {r q s r'}, nest r q s = some r' → ∀ e,
    serves r' e ↔ serves r e ∨ ∃ p, e.path = pathForNestedRoute q p ∧ serves s { e with path := p }
  once : ∀ {r e e'}, serves r e → serves r e' → e.path = e'.path → e.method = e'.method → e = e'

variable {E : Type}

/-! ## The code -/

/-- `build_method_router_tokens`. -/
def Registration.methodRouter (ax : Axum E) (reg : Registration E) : Option ax.MethodRouter :=
  reg.methods.foldlM (fun mr method => ax.on mr method reg.handler) ax.newMethodRouter

/-- `operation_binder_tokens`. -/
def Registration.bindOperations (ax : Axum E) (reg : Registration E) (router : ax.Router) :
    ax.Router :=
  reg.operations.foldl (fun router docs => ax.apiRouteDocsWith router reg.path docs) router

/-- The code of `generate_route_registration`.  A registration with operations is that of an
OpenAPI route. -/
def Registration.installInModule (ax : Axum E) (moduleRouter : ax.Router) (reg : Registration E) :
    Option ax.Router := do
  let methodRouter ← reg.methodRouter ax
  if reg.operations.isEmpty then
    if reg.layers.isEmpty then
      ax.route moduleRouter reg.path methodRouter
    else
      let functionRouter ← ax.route ax.newRouter reg.path methodRouter
      let functionRouter := reg.layers.foldl ax.layer functionRouter
      ax.merge moduleRouter functionRouter
  else
    if reg.layers.isEmpty then
      let moduleRouter ← ax.apiRoute moduleRouter reg.path methodRouter
      return reg.bindOperations ax moduleRouter
    else
      let functionRouter ← ax.apiRoute ax.newRouter reg.path methodRouter
      let moduleRouter := reg.bindOperations ax moduleRouter
      let functionRouter := reg.layers.foldl ax.layer functionRouter
      ax.merge moduleRouter functionRouter

/-- The code of `generate_function_route_registration`. -/
def Registration.installOnMethods (ax : Axum E) (router : ax.Router) (reg : Registration E) :
    Option ax.Router := do
  let methodRouter ← reg.methodRouter ax
  let methodRouter := reg.layers.foldl ax.layerMethods methodRouter
  if reg.operations.isEmpty then
    ax.route router reg.path methodRouter
  else
    let router ← ax.apiRoute router reg.path methodRouter
    return reg.bindOperations ax router

/-- The `match` on the nest prefix in `add_registrar_to_module`. -/
def Expansion.mountModule (ax : Axum E) (out : Expansion E) (router moduleRouter : ax.Router) :
    Option ax.Router :=
  match out.nestPrefix with
  | some pref => do
    let moduleRouter ← ax.route moduleRouter "/\x7b*path\x7d" ax.anyNotFound
    ax.nest router pref (out.moduleLayers.foldl ax.layer moduleRouter)
  | none => ax.merge router (out.moduleLayers.foldl ax.layer moduleRouter)

/-- `install_route` of the registrar. -/
def Expansion.installRoute (ax : Axum E) (out : Expansion E) (router : ax.Router) :
    Option ax.Router :=
  match out.item with
  | .fn _ => out.registrations.foldlM (Registration.installOnMethods ax) router
  | _ => do
    let moduleRouter ← out.registrations.foldlM (Registration.installInModule ax) ax.newRouter
    out.mountModule ax router moduleRouter

/-! ## What is served -/

/-- The endpoints of a registration: the layer called last is the outermost. -/
def Registration.endpoints (reg : Registration E) : List (Endpoint E) :=
  reg.methods.map fun method =>
    { path := reg.path, method := some method, handler := .fn reg.handler,
      layers := reg.layers.reverse }

section
variable {ax : Axum E} {reg : Registration E}

theorem handles_methods {name : String} {methods : List String} {mr mr' : ax.MethodRouter}
    (h : methods.foldlM (fun mr method => ax.on mr method name) mr = some mr') (m : Option String)
    (handler : RouteHandler) (l : List E) :
    ax.handles mr' m handler l ↔ ax.handles mr m handler l ∨
      ((∃ method ∈ methods, m = some method) ∧ handler = .fn name ∧ l = []) := by
  induction methods generalizing mr with
  | nil =>
      cases h
      simp
  | cons method rest ih =>
      rw [List.foldlM_cons] at h
      obtain ⟨mid, hon, hrest⟩ := Option.bind_eq_some_iff.mp h
      rw [ih hrest, ax.handles_on hon]
      simp only [List.mem_cons, or_and_right, exists_or, exists_eq_left, or_assoc]

theorem handles_methodRouter {mr : ax.MethodRouter} (h : reg.methodRouter ax = some mr)
    (m : Option String) (handler : RouteHandler) (l : List E) :
    ax.handles mr m handler l ↔
      (∃ method ∈ reg.methods, m = some method) ∧ handler = .fn reg.handler ∧ l = [] := by
  rw [handles_methods h, or_iff_right (ax.handles_new _ _ _)]

theorem handles_layers (layers : List E) (mr : ax.MethodRouter) (m : Option String)
    (handler : RouteHandler) (l : List E) :
    ax.handles (layers.foldl ax.layerMethods mr) m handler l ↔
      ∃ inner, l = layers.reverse ++ inner ∧ ax.handles mr m handler inner := by
  induction layers generalizing mr l with
  | nil => simp
  | cons x rest ih =>
      rw [List.foldl_cons, ih]
      constructor
      · intro hgiven
        obtain ⟨inner, rfl, hinner⟩ := hgiven
        obtain ⟨inner', rfl, hinner'⟩ := (ax.handles_layer _ _ _ _ _).mp hinner
        exact ⟨inner', by simp, hinner'⟩
      · intro hgiven
        obtain ⟨inner, rfl, hinner⟩ := hgiven
        exact ⟨x :: inner, by simp, (ax.handles_layer _ _ _ _ _).mpr ⟨inner, rfl, hinner⟩⟩

theorem serves_layers (layers : List E) (r : ax.Router) (e : Endpoint E) :
    ax.serves (layers.foldl ax.layer r) e ↔
      ∃ inner, e.layers = layers.reverse ++ inner ∧ ax.serves r { e with layers := inner } := by
  induction layers generalizing r e with
  | nil => simp
  | cons x rest ih =>
      rw [List.foldl_cons, ih]
      constructor
      · intro hgiven
        obtain ⟨inner, hlayers, hinner⟩ := hgiven
        obtain ⟨inner', hcons, hinner'⟩ := (ax.serves_layer _ _ _).mp hinner
        refine ⟨inner', ?_, hinner'⟩
        rw [hlayers, show inner = x :: inner' from hcons, List.reverse_cons, List.append_assoc]
        rfl
      · intro hgiven
        obtain ⟨inner, hlayers, hinner⟩ := hgiven
        refine ⟨x :: inner, ?_, (ax.serves_layer _ _ _).mpr ⟨inner, rfl, hinner⟩⟩
        rw [hlayers, List.reverse_cons, List.append_assoc]
        rfl

theorem serves_bindOperations (r : ax.Router) (e : Endpoint E) :
    ax.serves (reg.bindOperations ax r) e ↔ ax.serves r e := by
  unfold Registration.bindOperations
  induction reg.operations generalizing r with
  | nil => rfl
  | cons docs rest ih => rw [List.foldl_cons, ih, ax.serves_docs]

theorem mem_endpoints {e : Endpoint E} :
    e ∈ reg.endpoints ↔ e.path = reg.path ∧ (∃ method ∈ reg.methods, e.method = some method) ∧
      e.handler = .fn reg.handler ∧ e.layers = reg.layers.reverse := by
  obtain ⟨path, method, handler, layers⟩ := e
  simp only [Registration.endpoints, List.mem_map, Endpoint.mk.injEq]
  constructor
  · intro hgiven
    obtain ⟨m, hm, rfl, rfl, rfl, rfl⟩ := hgiven
    exact ⟨rfl, ⟨m, hm, rfl⟩, rfl, rfl⟩
  · intro hgiven
    obtain ⟨rfl, ⟨m, hm, rfl⟩, rfl, rfl⟩ := hgiven
    exact ⟨m, hm, rfl, rfl, rfl, rfl⟩

/-- A route of its own, behind the layers called on its router, is that of the registration. -/
theorem layered_route_iff {mr : ax.MethodRouter} (hmr : reg.methodRouter ax = some mr)
    (e : Endpoint E) :
    (∃ inner, e.layers = reg.layers.reverse ++ inner ∧ e.path = reg.path ∧
      ax.handles mr e.method e.handler inner) ↔ e ∈ reg.endpoints := by
  rw [mem_endpoints]
  constructor
  · intro hgiven
    obtain ⟨inner, hlayers, hpath, hhandles⟩ := hgiven
    obtain ⟨hmethod, hhandler, rfl⟩ := (handles_methodRouter hmr _ _ _).mp hhandles
    exact ⟨hpath, hmethod, hhandler, by rw [hlayers, List.append_nil]⟩
  · intro hgiven
    obtain ⟨hpath, hmethod, hhandler, hlayers⟩ := hgiven
    refine ⟨[], ?_, hpath, (handles_methodRouter hmr _ _ _).mpr ⟨hmethod, hhandler, rfl⟩⟩
    rw [hlayers, List.append_nil]

/-- The same of a route on which no layer is called. -/
theorem bare_route_iff {mr : ax.MethodRouter} (hmr : reg.methodRouter ax = some mr)
    (hlayers : reg.layers = []) (e : Endpoint E) :
    (e.path = reg.path ∧ ax.handles mr e.method e.handler e.layers) ↔ e ∈ reg.endpoints := by
  rw [mem_endpoints, handles_methodRouter hmr, hlayers]
  rfl

/-- Whatever the shape, the code for a route adds its endpoints to the module. -/
theorem serves_installInModule {r r' : ax.Router} (h : reg.installInModule ax r = some r')
    (e : Endpoint E) : ax.serves r' e ↔ ax.serves r e ∨ e ∈ reg.endpoints := by
  unfold Registration.installInModule at h
  obtain ⟨mr, hmr, h⟩ := Option.bind_eq_some_iff.mp h
  by_cases hlayers : reg.layers = []
  · rw [← bare_route_iff hmr hlayers]
    rw [hlayers, List.isEmpty_nil, if_pos rfl, if_pos rfl] at h
    split at h
    · exact ax.serves_route h e
    · obtain ⟨r₁, hroute, h⟩ := Option.bind_eq_some_iff.mp h
      cases h
      rw [serves_bindOperations, ax.serves_apiRoute hroute]
  · rw [← layered_route_iff hmr]
    have hfalse : ¬ reg.layers.isEmpty = true := fun hempty =>
      hlayers (List.isEmpty_iff.mp hempty)
    rw [if_neg hfalse, if_neg hfalse] at h
    split at h
    · obtain ⟨r₁, hroute, h⟩ := Option.bind_eq_some_iff.mp h
      rw [ax.serves_merge h, serves_layers]
      simp only [ax.serves_route hroute, ax.serves_new, false_or]
    · obtain ⟨r₁, hroute, h⟩ := Option.bind_eq_some_iff.mp h
      rw [ax.serves_merge h, serves_layers, serves_bindOperations]
      simp only [ax.serves_apiRoute hroute, ax.serves_new, false_or]

theorem serves_installOnMethods {r r' : ax.Router} (h : reg.installOnMethods ax r = some r')
    (e : Endpoint E) : ax.serves r' e ↔ ax.serves r e ∨ e ∈ reg.endpoints := by
  unfold Registration.installOnMethods at h
  obtain ⟨mr, hmr, h⟩ := Option.bind_eq_some_iff.mp h
  have hroute : (e.path = reg.path ∧
      ax.handles (reg.layers.foldl ax.layerMethods mr) e.method e.handler e.layers) ↔
        e ∈ reg.endpoints := by
    rw [handles_layers, ← layered_route_iff hmr]
    constructor
    · intro hgiven
      obtain ⟨hpath, inner, hlayers, hinner⟩ := hgiven
      exact ⟨inner, hlayers, hpath, hinner⟩
    · intro hgiven
      obtain ⟨inner, hlayers, hpath, hinner⟩ := hgiven
      exact ⟨hpath, inner, hlayers, hinner⟩
  rw [← hroute]
  split at h
  · exact ax.serves_route h e
  · obtain ⟨r₁, hr₁, h⟩ := Option.bind_eq_some_iff.mp h
    cases h
    rw [serves_bindOperations, ax.serves_apiRoute hr₁]

end

/-- Where the code puts a path of the module. -/
def Expansion.mountPath (ax : Axum E) (out : Expansion E) (path : String) : String :=
  match out.nestPrefix with
  | some pref => ax.pathForNestedRoute pref path
  | none => path

/-- An endpoint of the module, behind the layers of the module. -/
def Expansion.mounted (ax : Axum E) (out : Expansion E) (e : Endpoint E) : Endpoint E :=
  { e with path := out.mountPath ax e.path, layers := out.moduleLayers.reverse ++ e.layers }

/-- What answers the other requests under the nest prefix. -/
def Expansion.catchAll (out : Expansion E) : Option (Endpoint E) :=
  out.nestPrefix.map fun _ =>
    { path := "/\x7b*path\x7d", method := none, handler := .notFound, layers := [] }

section
variable {ax : Axum E} {out : Expansion E}

theorem serves_layered_iff {r : ax.Router} {layers : List E} {e : Endpoint E} :
    ax.serves (layers.foldl ax.layer r) e ↔
      ∃ inner, ax.serves r inner ∧ e = { inner with layers := layers.reverse ++ inner.layers } := by
  rw [serves_layers]
  constructor
  · intro hgiven
    obtain ⟨inner, hlayers, hserves⟩ := hgiven
    exact ⟨_, hserves, by rw [← hlayers]⟩
  · intro hgiven
    obtain ⟨inner, hserves, rfl⟩ := hgiven
    exact ⟨inner.layers, rfl, hserves⟩

theorem serves_mountModule {router moduleRouter router' : ax.Router}
    (h : out.mountModule ax router moduleRouter = some router') (e : Endpoint E) :
    ax.serves router' e ↔ ax.serves router e ∨
      ∃ inner, (ax.serves moduleRouter inner ∨ inner ∈ out.catchAll) ∧
        e = out.mounted ax inner := by
  unfold Expansion.mountModule at h
  cases hnest : out.nestPrefix with
  | none =>
      rw [hnest] at h
      rw [ax.serves_merge h, serves_layered_iff]
      simp only [Expansion.catchAll, Expansion.mounted, Expansion.mountPath, hnest,
        Option.map_none, Option.mem_def, reduceCtorEq, or_false]
  | some pref =>
      rw [hnest] at h
      obtain ⟨nested, hroute, h⟩ := Option.bind_eq_some_iff.mp h
      rw [ax.serves_nest h]
      have hcatch : ∀ inner, ax.serves nested inner ↔
          ax.serves moduleRouter inner ∨ inner ∈ out.catchAll := by
        intro inner
        rw [ax.serves_route hroute, ax.handles_any]
        simp only [Expansion.catchAll, hnest, Option.map_some, Option.mem_def, Option.some.injEq]
        obtain ⟨path, method, handler, layers⟩ := inner
        simp only [Endpoint.mk.injEq, eq_comm]
      refine or_congr_right ?_
      simp only [serves_layered_iff, hcatch]
      constructor
      · intro hgiven
        obtain ⟨p, hpath, inner, hserves, heq⟩ := hgiven
        refine ⟨inner, hserves, ?_⟩
        obtain ⟨path, method, handler, layers⟩ := e
        obtain ⟨rfl, rfl, rfl, rfl⟩ := Endpoint.mk.inj heq
        obtain rfl : path = ax.pathForNestedRoute pref inner.path := hpath
        simp only [Expansion.mounted, Expansion.mountPath, hnest]
      · intro hgiven
        obtain ⟨inner, hserves, rfl⟩ := hgiven
        refine ⟨inner.path, ?_, inner, hserves, rfl⟩
        simp only [Expansion.mounted, Expansion.mountPath, hnest]

theorem serves_foldlM {step : ax.Router → Registration E → Option ax.Router}
    (hstep : ∀ {reg r r'}, step r reg = some r' → ∀ e, ax.serves r' e ↔
      ax.serves r e ∨ e ∈ reg.endpoints) {regs : List (Registration E)} {r r' : ax.Router}
    (h : regs.foldlM step r = some r') (e : Endpoint E) :
    ax.serves r' e ↔ ax.serves r e ∨ ∃ reg ∈ regs, e ∈ reg.endpoints := by
  induction regs generalizing r with
  | nil =>
      cases h
      simp
  | cons reg rest ih =>
      rw [List.foldlM_cons] at h
      obtain ⟨mid, hmid, hrest⟩ := Option.bind_eq_some_iff.mp h
      rw [ih hrest, hstep hmid]
      simp only [List.mem_cons, or_and_right, exists_or, exists_eq_left, or_assoc]

/-- The registrar adds the endpoints of the registrations and the catch-all, all of them
behind the layers of the module. -/
theorem serves_installRoute {router router' : ax.Router}
    (hfunction : ∀ function, out.item = .fn function →
      out.moduleLayers = [] ∧ out.nestPrefix = none)
    (h : out.installRoute ax router = some router') (e : Endpoint E) :
    ax.serves router' e ↔ ax.serves router e ∨
      ∃ inner, ((∃ reg ∈ out.registrations, inner ∈ reg.endpoints) ∨ inner ∈ out.catchAll) ∧
        e = out.mounted ax inner := by
  have hmodule : ∀ moduleRouter,
      out.registrations.foldlM (Registration.installInModule ax) ax.newRouter =
        some moduleRouter → ∀ inner, ax.serves moduleRouter inner ↔
          ∃ reg ∈ out.registrations, inner ∈ reg.endpoints := by
    intro moduleRouter hfold inner
    rw [serves_foldlM serves_installInModule hfold, or_iff_right (ax.serves_new _)]
  unfold Expansion.installRoute at h
  split at h
  · next function hitem =>
      obtain ⟨hlayers, hnest⟩ := hfunction function hitem
      rw [serves_foldlM serves_installOnMethods h]
      simp only [Expansion.catchAll, Expansion.mounted, Expansion.mountPath, hnest, hlayers,
        Option.map_none, Option.mem_def, reduceCtorEq, or_false, List.reverse_nil, List.nil_append,
        exists_eq_right']
  · obtain ⟨moduleRouter, hfold, h⟩ := Option.bind_eq_some_iff.mp h
    simp only [serves_mountModule h, hmodule moduleRouter hfold]

end

end Summer.Macros
