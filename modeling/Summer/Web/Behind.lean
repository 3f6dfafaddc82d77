/-
The layers that a request passes on its way to each endpoint (`summer-web/src/lib.rs` and
`middleware.rs`).

`Router::layer` wraps the routes, the nested services and the fallback that are there when it
is called, and nothing that is added later: what is around an endpoint depends on the order of
the calls on the router.  A configuration decides on these calls (`serveCalls`), and making
them is what the assembly does (`calls_of_serve`).  Nesting under a global prefix then takes
the endpoints along, and a fallback service, but not axum's own answer to an unmatched request.
-/
import Summer.Web.Assembly

namespace Summer.Web

/-- A call on the router. -/
inductive RouterCall
  | layer (layer : Layer)
  | nestService (path : String) (service : Service)
  | fallbackService (service : Service)
deriving DecidableEq, Repr

section
variable {α : Type}

def Router.call (host : Host) (router : Router α) : RouterCall → Option (Router α)
  | .layer layer => some (router.layer layer)
  | .nestService path service => router.nestService host path service
  | .fallbackService service => some { router with fallback := some service }

def Router.calls (host : Host) (router : Router α) (calls : List RouterCall) :
    Option (Router α) :=
  calls.foldlM (Router.call host) router

/-- The registered routers, merged. -/
def Router.merged (paths : Paths α) : Router α where
  paths := paths
  layers := []
  services := []
  fallback := none

end

/-! ## The calls -/

def enabledLayers (c : Prop) [Decidable c] (layer : Layer) : List Layer :=
  if c then [layer] else []

def loggerLayers : Option TraceLoggerMiddleware → List Layer
  | some { enable := true, level } => [.trace level]
  | _ => []

def timeoutLayers : Option TimeoutRequestMiddleware → List Layer
  | some { enable := true, timeout } => [.timeout timeout]
  | _ => []

def limitPayloadLayers (host : Host) : Option LimitPayloadMiddleware → Option (List Layer)
  | some { enable := true, bodyLimit } => (host.parseByte bodyLimit).map fun limit =>
      [.defaultBodyLimit limit, .requestBodyLimit limit]
  | _ => some []

def corsLayers (host : Host) : Option CorsMiddleware → Option (List Layer)
  | some cors =>
    if cors.enable then (buildCorsMiddleware host cors).map fun cors => [.cors cors] else some []
  | none => some []

/-- The layers of a `[web.middlewares]` section, the innermost first. -/
def middlewareLayers (host : Host) (middleware : Middlewares) : Option (List Layer) := do
  let limit ← limitPayloadLayers host middleware.limitPayload
  let cors ← corsLayers host middleware.cors
  return [.captureRequestUri] ++ enabledLayers (some { enable := true } = middleware.catchPanic)
    .catchPanic ++ enabledLayers (some { enable := true } = middleware.compression) .compression ++
    loggerLayers middleware.logger ++ timeoutLayers middleware.timeoutRequest ++ limit ++ cors

def staticDirCall (host : Host) (assets : StaticAssetsMiddleware) : Option RouterCall :=
  if assets.mustExist && (!host.pathExists assets.path || !host.pathExists assets.fallback) then
    none
  else
    let service := .serveDir assets.path (assets.path ++ "/" ++ assets.fallback)
      assets.precompressed
    if assets.uri = "/" then some (.fallbackService service)
    else some (.nestService assets.uri service)

def staticAssetsCalls (host : Host) : Option StaticAssetsMiddleware → Option (List RouterCall)
  | some assets => if assets.enable then (staticDirCall host assets).map ([·]) else some []
  | none => some []

def configuredLayers (host : Host) : Option Middlewares → Option (List Layer)
  | none => some []
  | some middlewares => middlewareLayers host middlewares

def configuredAssets (host : Host) : Option Middlewares → Option (List RouterCall)
  | none => some []
  | some middlewares => staticAssetsCalls host middlewares.staticAssets

/-- The layers around all but the documentation, the innermost first: Socket.IO and those of
the plugins in the order they were added. -/
def pluginLayers (config : WebConfig) (routerLayers : List String) : List Layer :=
  enabledLayers (config.socketIo = true) .socketIo ++ routerLayers.map .custom

def docsCall (config : WebConfig) : RouterCall :=
  .nestService (normalizePrefix config.docPrefix)
    (.docs (openapiPath (normalizePrefix config.docPrefix) (normalizePrefix config.globalPrefix))
      config.docTitle)

/-- The calls on the router that is served, up to its nesting under the global prefix. -/
def callsWith (config : WebConfig) (routerLayers : List String) (layers : List Layer)
    (assets : List RouterCall) : List RouterCall :=
  layers.map .layer ++ assets ++ (pluginLayers config routerLayers).map .layer ++
    [docsCall config, .layer .openApi, .layer .appState]

def serveCalls (host : Host) (config : WebConfig) (routerLayers : List String) :
    Option (List RouterCall) := do
  let layers ← configuredLayers host config.middlewares
  let assets ← configuredAssets host config.middlewares
  return callsWith config routerLayers layers assets

/-! ## What is around each endpoint -/

/-- The layers around the routes, around the services that were nested, and around the
fallback, each the outermost first.  Without a fallback service the last are those around the
answer to a request that matches nothing.  `outside` are those around the answer to a request
that is not under the prefix, if the router is nested under one. -/
structure Stacks where
  routes : List Layer
  services : List (String × Service × List Layer)
  fallback : Option Service × List Layer
  outside : Option (List Layer)
deriving DecidableEq, Repr

namespace Stacks

def merged : Stacks where
  routes := []
  services := []
  fallback := (none, [])
  outside := none

def call (layered : Stacks) : RouterCall → Stacks
  | .layer layer =>
    { routes := layer :: layered.routes
      services := layered.services.map fun (path, service, layers) =>
        (path, service, layer :: layers)
      fallback := (layered.fallback.1, layer :: layered.fallback.2)
      outside := layered.outside.map (layer :: ·) }
  | .nestService path service =>
    { layered with services := layered.services ++ [(path, service, [])] }
  | .fallbackService service => { layered with fallback := (some service, []) }

def calls (layered : Stacks) (calls : List RouterCall) : Stacks := calls.foldl call layered

/-- All that is there, with these layers around it. -/
def around (layered : Stacks) (layers : List Layer) : Stacks where
  routes := layers ++ layered.routes
  services := layered.services.map fun (path, service, inner) => (path, service, layers ++ inner)
  fallback := (layered.fallback.1, layers ++ layered.fallback.2)
  outside := layered.outside.map (layers ++ ·)

/-- `axum::Router::new().nest(prefix, router)`: a fallback service goes with the router; the
answer to a request that matches nothing is that of the new router, which has no layers. -/
def nest (layered : Stacks) : Stacks :=
  { layered with
    fallback := if layered.fallback.1.isSome then layered.fallback else (none, [])
    outside := some [] }

def nestUnder (layered : Stacks) : Option String → Stacks
  | none => layered
  | some _ => layered.nest

theorem calls_append (layered : Stacks) (l l' : List RouterCall) :
    layered.calls (l ++ l') = (layered.calls l).calls l' :=
  List.foldl_append

theorem calls_layers (layered : Stacks) (layers : List Layer) :
    layered.calls (layers.map .layer) = layered.around layers.reverse := by
  induction layers generalizing layered with
  | nil =>
      show layered = _
      simp [around]
  | cons layer layers ih =>
      show (layered.call (.layer layer)).calls (layers.map .layer) = _
      rw [ih]
      simp [around, call, Function.comp_def]

end Stacks

/-! ## The assembly makes these calls -/

section
variable {α : Type} {host : Host} {router : Router α}

namespace Router

/-- Layers around all that is there. -/
def wrap (router : Router α) (layers : List Layer) : Router α :=
  { router with layers := layers.reverse ++ router.layers }

theorem wrap_wrap (router : Router α) (layers layers' : List Layer) :
    (router.wrap layers).wrap layers' = router.wrap (layers ++ layers') := by
  simp [wrap]

theorem calls_append (router : Router α) (l l' : List RouterCall) :
    router.calls host (l ++ l') = (router.calls host l).bind fun router => router.calls host l' :=
  List.foldlM_append

theorem calls_singleton (router : Router α) (call : RouterCall) :
    router.calls host [call] = router.call host call := by
  show (router.call host call).bind some = _
  exact Option.bind_fun_some _

theorem calls_layers (router : Router α) (layers : List Layer) :
    router.calls host (layers.map .layer) = some (router.wrap layers) := by
  induction layers generalizing router with
  | nil => rfl
  | cons layer layers ih =>
      show (router.layer layer).calls host (layers.map .layer) = _
      rw [ih]
      simp [wrap, Router.layer]

end Router

theorem enable_eq (c : Prop) [Decidable c] (router : Router α) (layer : Layer) :
    (if c then router.layer layer else router) = router.wrap (enabledLayers c layer) := by
  unfold enabledLayers
  split <;> rfl

theorem applyLogger_eq (router : Router α) (logger : Option TraceLoggerMiddleware) :
    applyLogger router logger = router.wrap (loggerLayers logger) := by
  cases logger with
  | none => rfl
  | some logger =>
      obtain ⟨enable, level⟩ := logger
      cases enable <;> rfl

theorem applyTimeout_eq (router : Router α) (timeout : Option TimeoutRequestMiddleware) :
    applyTimeout router timeout = router.wrap (timeoutLayers timeout) := by
  cases timeout with
  | none => rfl
  | some timeout =>
      obtain ⟨enable, millis⟩ := timeout
      cases enable <;> rfl

theorem applyLimitPayload_eq (router : Router α) (limit : Option LimitPayloadMiddleware) :
    applyLimitPayload host router limit = (limitPayloadLayers host limit).map router.wrap := by
  cases limit with
  | none => rfl
  | some limit =>
      obtain ⟨enable, bodyLimit⟩ := limit
      cases enable with
      | false => rfl
      | true =>
          unfold applyLimitPayload limitPayloadLayers
          rw [Option.map_map]
          rfl

theorem applyCors_eq (router : Router α) (cors : Option CorsMiddleware) :
    applyCors host router cors = (corsLayers host cors).map router.wrap := by
  cases cors with
  | none => rfl
  | some cors =>
      unfold applyCors corsLayers
      by_cases henable : cors.enable = true
      · simp only [if_pos henable]
        rw [Option.map_map]
        rfl
      · simp only [if_neg henable]
        rfl

theorem applyStaticDir_eq (router : Router α) (assets : StaticAssetsMiddleware) :
    applyStaticDir host router assets = (staticDirCall host assets).bind (router.call host) := by
  unfold applyStaticDir staticDirCall
  split
  · rfl
  · simp only
    split <;> rfl

theorem applyStaticAssets_eq (router : Router α) (assets : Option StaticAssetsMiddleware) :
    applyStaticAssets host router assets =
      (staticAssetsCalls host assets).bind (router.calls host) := by
  cases assets with
  | none => rfl
  | some assets =>
      unfold applyStaticAssets staticAssetsCalls
      by_cases henable : assets.enable = true
      · simp only [if_pos henable]
        rw [applyStaticDir_eq, Option.bind_map]
        congr 1
        funext call
        exact (Router.calls_singleton router call).symm
      · simp only [if_neg henable]
        rfl

theorem applyMiddleware_eq (router : Router α) (middleware : Middlewares) :
    applyMiddleware host router middleware =
      (middlewareLayers host middleware).bind fun layers =>
        (staticAssetsCalls host middleware.staticAssets).bind fun assets =>
          router.calls host (layers.map .layer ++ assets) := by
  unfold applyMiddleware middlewareLayers
  simp only [bind, pure, enable_eq, applyLogger_eq, applyTimeout_eq, applyLimitPayload_eq,
    applyCors_eq, applyStaticAssets_eq]
  cases limitPayloadLayers host middleware.limitPayload with
  | none => rfl
  | some limit =>
      cases corsLayers host middleware.cors with
      | none => rfl
      | some cors =>
          cases staticAssetsCalls host middleware.staticAssets with
          | none => rfl
          | some assets =>
              show Router.calls _ _ assets = Router.calls _ router (_ ++ assets)
              rw [Router.calls_append, Router.calls_layers]
              simp [Router.layer, Router.wrap]

theorem applyConfigured_eq (router : Router α) (middlewares : Option Middlewares) :
    applyConfigured host router middlewares =
      (configuredLayers host middlewares).bind fun layers =>
        (configuredAssets host middlewares).bind fun assets =>
          router.calls host (layers.map .layer ++ assets) := by
  cases middlewares with
  | none => rfl
  | some middlewares => exact applyMiddleware_eq router middlewares

theorem routerLayers_eq (router : Router α) (routerLayers : List String) :
    routerLayers.foldl (fun router name => router.layer (.custom name)) router =
      router.wrap (routerLayers.map .custom) := by
  induction routerLayers generalizing router with
  | nil => rfl
  | cons name routerLayers ih =>
      rw [List.foldl_cons, ih]
      simp [Router.wrap, Router.layer]

theorem assembleRouter_calls (config : WebConfig) (paths : Paths α) :
    assembleRouter host config paths =
      (configuredLayers host config.middlewares).bind fun layers =>
        (configuredAssets host config.middlewares).bind fun assets =>
          ((Router.merged paths).calls host (layers.map .layer ++ assets)).map fun router =>
            router.wrap (enabledLayers (config.socketIo = true) .socketIo) := by
  unfold assembleRouter
  show (applyConfigured host (Router.merged paths) config.middlewares).bind _ = _
  rw [applyConfigured_eq]
  cases configuredLayers host config.middlewares with
  | none => rfl
  | some layers =>
      cases configuredAssets host config.middlewares with
      | none => rfl
      | some assets =>
          simp only [Option.bind_some]
          cases (Router.merged paths).calls host (layers.map .layer ++ assets) with
          | none => rfl
          | some router =>
              show some (if config.socketIo = true then router.layer .socketIo else router) = _
              rw [enable_eq]
              rfl

theorem finishOpenapi_calls (config : WebConfig) :
    finishOpenapi host router (normalizePrefix config.docPrefix) config.docTitle
        (normalizePrefix config.globalPrefix) =
      (router.calls host [docsCall config, .layer .openApi]).map fun finished =>
        (finished, prefixedApi (normalizePrefix config.globalPrefix) finished.paths) := by
  unfold finishOpenapi
  show _ = ((router.nestService host _ _).bind fun nested =>
    nested.calls host [.layer .openApi]).map _
  cases hnest : router.nestService host (normalizePrefix config.docPrefix) _ with
  | none => rfl
  | some nested =>
      obtain ⟨_, rfl⟩ := nestService_eq hnest
      rfl

/-- A router that is served makes exactly the calls that the configuration decides on. -/
theorem calls_of_serve {config : WebConfig} {paths : Paths α} {routerLayers : List String}
    {served : Served α} (h : serve host config paths routerLayers = some served) :
    ∃ calls, serveCalls host config routerLayers = some calls ∧
      (Router.merged paths).calls host calls = some served.router := by
  unfold serve at h
  simp only [bind, Option.bind_eq_some_iff] at h
  obtain ⟨assembled, hassemble, hfinalize⟩ := h
  rw [assembleRouter_calls] at hassemble
  simp only [Option.bind_eq_some_iff, Option.map_eq_some_iff] at hassemble
  obtain ⟨layers, hlayers, assets, hassets, router, hrouter, rfl⟩ := hassemble
  obtain ⟨finished, hfinish, hserved, _⟩ := finalizeRouter_eq hfinalize
  rw [routerLayers_eq, Router.wrap_wrap] at hfinish
  have hcalls := (finishOpenapi_calls config).symm.trans hfinish
  obtain ⟨finished', hdocs, heq⟩ := Option.map_eq_some_iff.mp hcalls
  obtain ⟨rfl, _⟩ := Prod.mk.inj heq
  refine ⟨callsWith config routerLayers layers assets, ?_, ?_⟩
  · unfold serveCalls
    rw [hlayers, hassets]
    rfl
  · unfold callsWith
    rw [Router.calls_append, Router.calls_append, hrouter]
    simp only [Option.bind_some, Router.calls_layers]
    show Router.calls _ _ ([docsCall config, .layer .openApi] ++ [.layer .appState]) = _
    have hdocs' : (router.wrap (pluginLayers config routerLayers)).calls host
        [docsCall config, .layer .openApi] = some finished' := hdocs
    rw [Router.calls_append, hdocs', hserved]
    rfl

/-! ## The stacks of what is served -/

theorem staticDirCall_cases {assets : StaticAssetsMiddleware} {call : RouterCall}
    (h : staticDirCall host assets = some call) :
    ∃ path fallback precompressed,
      call = .fallbackService (.serveDir path fallback precompressed) ∨
      ∃ uri, call = .nestService uri (.serveDir path fallback precompressed) := by
  obtain ⟨_, h⟩ := Option.ite_none_left_eq_some.mp h
  refine ⟨assets.path, assets.path ++ "/" ++ assets.fallback, assets.precompressed, ?_⟩
  by_cases huri : assets.uri = "/"
  · rw [if_pos huri] at h
    exact .inl (Option.some.inj h).symm
  · rw [if_neg huri] at h
    exact .inr ⟨_, (Option.some.inj h).symm⟩

theorem configuredAssets_cases {middlewares : Option Middlewares} {calls : List RouterCall}
    (h : configuredAssets host middlewares = some calls) :
    calls = [] ∨ ∃ call assets, calls = [call] ∧ staticDirCall host assets = some call := by
  cases middlewares with
  | none => exact .inl (Option.some.inj h).symm
  | some middlewares =>
      replace h : staticAssetsCalls host middlewares.staticAssets = some calls := h
      cases hassets : middlewares.staticAssets with
      | none =>
          rw [hassets] at h
          exact .inl (Option.some.inj h).symm
      | some assets =>
          rw [hassets] at h
          unfold staticAssetsCalls at h
          by_cases henable : assets.enable = true
          · simp only [if_pos henable] at h
            obtain ⟨call, hcall, rfl⟩ := Option.map_eq_some_iff.mp h
            exact .inr ⟨call, assets, rfl, hcall⟩
          · simp only [if_neg henable] at h
            exact .inl (Option.some.inj h).symm

/-- The layers around all but the documentation, the outermost first. -/
def outerLayers (config : WebConfig) (routerLayers : List String) : List Layer :=
  [.appState, .openApi] ++ (pluginLayers config routerLayers).reverse

/-- The layers of the middlewares, `inner`, are around the routes.  Static assets are within the
layers of the plugins only, and the pages of the documentation not even within those.  The answer
to a request that matches nothing is as deep as a route, unless the router is nested under a
prefix: then it has no layers, under the prefix or outside. -/
structure Behind (config : WebConfig) (routerLayers : List String) (inner : List Layer)
    (nested : Option String) (layered : Stacks) : Prop where
  routes : layered.routes = outerLayers config routerLayers ++ inner.reverse
  assets : ∀ uri path fallback precompressed layers,
    (uri, .serveDir path fallback precompressed, layers) ∈ layered.services →
      layers = outerLayers config routerLayers
  docs : ∀ path url title layers, (path, .docs url title, layers) ∈ layered.services ↔
    path = normalizePrefix config.docPrefix ∧
      url = openapiPath (normalizePrefix config.docPrefix) (normalizePrefix config.globalPrefix) ∧
      title = config.docTitle ∧ layers = [.appState, .openApi]
  fallback : layered.fallback.2 =
    if layered.fallback.1.isSome then outerLayers config routerLayers
    else if nested.isSome then []
    else layered.routes
  outside : layered.outside = nested.map fun _ => []

theorem behind_calls {config : WebConfig} {routerLayers : List String} {layers : List Layer}
    {assets : List RouterCall} (h : configuredAssets host config.middlewares = some assets) :
    Behind config routerLayers layers none
      (Stacks.merged.calls (callsWith config routerLayers layers assets)) := by
  unfold callsWith
  rw [Stacks.calls_append, Stacks.calls_append, Stacks.calls_append, Stacks.calls_layers,
    Stacks.calls_layers]
  rcases configuredAssets_cases h with rfl | ⟨call, static, rfl, hcall⟩
  · constructor <;>
      simp [Stacks.calls, Stacks.call, Stacks.around, Stacks.merged, docsCall, outerLayers,
        and_assoc]
  · obtain ⟨path, fallback, precompressed, rfl | ⟨uri, rfl⟩⟩ := staticDirCall_cases hcall
    · constructor <;>
        simp [Stacks.calls, Stacks.call, Stacks.around, Stacks.merged, docsCall, outerLayers,
          and_assoc]
    · constructor <;>
        simp [Stacks.calls, Stacks.call, Stacks.around, Stacks.merged, docsCall, outerLayers,
          and_assoc]

/-- Nesting leaves the endpoints behind their layers. -/
theorem Behind.nestUnder {config : WebConfig} {routerLayers : List String}
    {inner : List Layer} {layered : Stacks} (h : Behind config routerLayers inner none layered)
    (nested : Option String) :
    Behind config routerLayers inner nested (layered.nestUnder nested) := by
  cases nested with
  | none => exact h
  | some q =>
      refine ⟨h.routes, h.assets, h.docs, ?_, rfl⟩
      show (if layered.fallback.1.isSome then layered.fallback else (none, [])).2 =
        if (if layered.fallback.1.isSome then layered.fallback else (none, [])).1.isSome then _
        else []
      by_cases hfallback : layered.fallback.1.isSome
      · rw [if_pos hfallback, if_pos hfallback, h.fallback, if_pos hfallback]
      · rw [if_neg hfallback]
        rfl

/-- For every configuration, the layers of `[web.middlewares]` are around exactly the routes,
in their fixed order; the layers of the plugins are around these, the last one added outermost,
and around the static assets; under a global prefix nothing is around the answer to a request
that matches nothing. -/
theorem served_behind {config : WebConfig} {paths : Paths α} {routerLayers : List String}
    {served : Served α} (h : serve host config paths routerLayers = some served) :
    served.nested = (if normalizePrefix config.globalPrefix = "" then none
        else some (normalizePrefix config.globalPrefix)) ∧
      ∃ calls layers, serveCalls host config routerLayers = some calls ∧
        (Router.merged paths).calls host calls = some served.router ∧
        configuredLayers host config.middlewares = some layers ∧
        Behind config routerLayers layers served.nested
          ((Stacks.merged.calls calls).nestUnder served.nested) := by
  obtain ⟨calls, hcalls, hrouter⟩ := calls_of_serve h
  have hconfigured := hcalls
  unfold serveCalls at hconfigured
  simp only [bind, Option.bind_eq_some_iff] at hconfigured
  obtain ⟨layers, hlayers, assets, hassets, heq⟩ := hconfigured
  refine ⟨(assembled_of_serve h).nested, calls, layers, hcalls, hrouter, hlayers, ?_⟩
  rw [← Option.some.inj heq]
  exact (behind_calls hassets).nestUnder served.nested

end

namespace Sample

/-- A timeout, and assets under `/static`. -/
def assets (globalPrefix : String) : WebConfig :=
  config globalPrefix (some { middlewares with
    timeoutRequest := some { enable := true, timeout := 1000 }
    staticAssets := some
      { enable := true, mustExist := false, fallback := "index.html", precompressed := false,
        uri := "/static", path := "static" } })

end Sample

/-- The timeout is not around the assets, and nothing is around the answer to a request that
matches nothing. -/
theorem assets_behind : ∃ calls layered,
    serveCalls Sample.host (Sample.assets "api") ["auth"] = some calls ∧
      layered = (Stacks.merged.calls calls).nestUnder (some "/api") ∧
      Behind (Sample.assets "api") ["auth"] [.captureRequestUri, .timeout 1000] (some "/api")
        layered ∧
      layered.fallback = (none, []) := by
  obtain ⟨_, calls, layers, hcalls, _, hlayers, hbehind⟩ :=
    @served_behind Unit Sample.host (Sample.assets "api") .empty ["auth"] _ rfl
  obtain rfl := Option.some.inj (hlayers.symm.trans (by rfl))
  obtain rfl := Option.some.inj (hcalls.symm.trans (by rfl))
  exact ⟨_, _, hcalls, rfl, hbehind, rfl⟩

end Summer.Web
