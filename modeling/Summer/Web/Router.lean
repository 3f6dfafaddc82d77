/-
Assembling the router of the web plugin (`summer-web/src/lib.rs`, `middleware.rs` and
`config.rs`).

A router has the paths it documents, its layers, the outermost first, and the services nested
in it.  Where the program panics there is no router.
-/
import Mathlib.Data.List.DropRight
import Summer.Lib.IndexMap

namespace Summer.Web

/-! ## The configuration -/

/-- `normalize_prefix`: a leading slash and no trailing ones. -/
def normalizePrefix (pref : String) : String :=
  if pref = "" then
    pref
  else
    let chars := if pref.toList.head? = some '/' then pref.toList else '/' :: pref.toList
    String.ofList (chars.rdropWhile (· = '/'))

structure EnableMiddleware where
  enable : Bool
deriving DecidableEq, Repr

inductive LogLevel
  | trace
  | debug
  | info
  | warn
  | error
deriving DecidableEq, Repr

structure TraceLoggerMiddleware where
  enable : Bool
  level : LogLevel
deriving DecidableEq, Repr

/-- The timeout is in milliseconds. -/
structure TimeoutRequestMiddleware where
  enable : Bool
  timeout : UInt64
deriving DecidableEq, Repr

structure LimitPayloadMiddleware where
  enable : Bool
  bodyLimit : String
deriving DecidableEq, Repr

structure CorsMiddleware where
  enable : Bool
  allowOrigins : Option (List String)
  allowHeaders : Option (List String)
  allowMethods : Option (List String)
  maxAge : Option UInt64
deriving DecidableEq, Repr

structure StaticAssetsMiddleware where
  enable : Bool
  mustExist : Bool
  fallback : String
  precompressed : Bool
  uri : String
  path : String
deriving DecidableEq, Repr

structure Middlewares where
  compression : Option EnableMiddleware
  limitPayload : Option LimitPayloadMiddleware
  logger : Option TraceLoggerMiddleware
  catchPanic : Option EnableMiddleware
  timeoutRequest : Option TimeoutRequestMiddleware
  cors : Option CorsMiddleware
  staticAssets : Option StaticAssetsMiddleware
deriving DecidableEq, Repr

/-- `socketIo` says whether there is a `[socket_io]` section. -/
structure WebConfig where
  globalPrefix : String
  docPrefix : String
  docTitle : String
  middlewares : Option Middlewares
  socketIo : Bool
deriving DecidableEq, Repr

def WebConfig.normalizePrefixes (config : WebConfig) : WebConfig :=
  { config with
    globalPrefix := normalizePrefix config.globalPrefix
    docPrefix := normalizePrefix config.docPrefix }

/-! ## Routers -/

/-- What the assembly asks of the host, of the parsers and of axum.  `nests` says at which paths
axum nests something in a router of the application, and does not panic. -/
structure Host where
  pathExists : String → Bool
  parseByte : String → Option Nat
  parseOrigin : String → Bool
  parseHeader : String → Bool
  parseMethod : String → Bool
  nests : String → Bool

inductive Allow
  | any
  | values (items : List String)
deriving DecidableEq, Repr

structure CorsLayer where
  origins : Option Allow
  headers : Option Allow
  methods : Option Allow
  maxAge : Option UInt64
deriving DecidableEq, Repr

/-- A custom layer is one of the application's `RouterLayers`. -/
inductive Layer
  | captureRequestUri
  | catchPanic
  | compression
  | trace (level : LogLevel)
  | timeout (millis : UInt64)
  | defaultBodyLimit (limit : Nat)
  | requestBodyLimit (limit : Nat)
  | cors (layer : CorsLayer)
  | socketIo
  | custom (name : String)
  | openApi
  | appState
deriving DecidableEq, Repr

inductive Service
  | serveDir (path fallback : String) (precompressed : Bool)
  | docs (openapiPath title : String)
deriving DecidableEq, Repr

variable {α : Type}

/-- The documented paths with their items. -/
abbrev Paths (α : Type) := IndexMap String α

structure Router (α : Type) where
  paths : Paths α
  layers : List Layer
  services : List (String × Service)
  fallback : Option Service

namespace Router

def layer (router : Router α) (layer : Layer) : Router α :=
  { router with layers := layer :: router.layers }

def nestService (host : Host) (router : Router α) (path : String) (service : Service) :
    Option (Router α) :=
  if host.nests path then
    some { router with services := router.services ++ [(path, service)] }
  else
    none

end Router

/-! ## Middlewares -/

/-- A list of a `[web.middlewares.cors]` section; `none` stands for an item that does not
parse. -/
def buildAllow (parses : String → Bool) : Option (List String) → Option (Option Allow)
  | none => some none
  | some items =>
    if "*" ∈ items then some (some .any)
    else if items.all parses then some (some (.values items))
    else none

def buildCorsMiddleware (host : Host) (cors : CorsMiddleware) : Option CorsLayer := do
  let origins ← buildAllow host.parseOrigin cors.allowOrigins
  let headers ← buildAllow host.parseHeader cors.allowHeaders
  let methods ← buildAllow host.parseMethod cors.allowMethods
  return { origins, headers, methods, maxAge := cors.maxAge }

def applyStaticDir (host : Host) (router : Router α) (assets : StaticAssetsMiddleware) :
    Option (Router α) :=
  if assets.mustExist && (!host.pathExists assets.path || !host.pathExists assets.fallback) then
    none
  else
    let service := .serveDir assets.path (assets.path ++ "/" ++ assets.fallback)
      assets.precompressed
    if assets.uri = "/" then
      some { router with fallback := some service }
    else
      router.nestService host assets.uri service

def applyLogger (router : Router α) : Option TraceLoggerMiddleware → Router α
  | some { enable := true, level } => router.layer (.trace level)
  | _ => router

def applyTimeout (router : Router α) : Option TimeoutRequestMiddleware → Router α
  | some { enable := true, timeout } => router.layer (.timeout timeout)
  | _ => router

def applyLimitPayload (host : Host) (router : Router α) :
    Option LimitPayloadMiddleware → Option (Router α)
  | some { enable := true, bodyLimit } =>
    (host.parseByte bodyLimit).map fun limit =>
      (router.layer (.defaultBodyLimit limit)).layer (.requestBodyLimit limit)
  | _ => some router

def applyCors (host : Host) (router : Router α) : Option CorsMiddleware → Option (Router α)
  | some cors =>
    if cors.enable then (buildCorsMiddleware host cors).map fun cors => router.layer (.cors cors)
    else some router
  | none => some router

def applyStaticAssets (host : Host) (router : Router α) :
    Option StaticAssetsMiddleware → Option (Router α)
  | some assets => if assets.enable then applyStaticDir host router assets else some router
  | none => some router

def applyMiddleware (host : Host) (router : Router α) (middleware : Middlewares) :
    Option (Router α) := do
  -- the first layer is the innermost one
  let router := router.layer .captureRequestUri
  let router :=
    if some { enable := true } = middleware.catchPanic then router.layer .catchPanic else router
  let router :=
    if some { enable := true } = middleware.compression then router.layer .compression else router
  let router := applyLogger router middleware.logger
  let router := applyTimeout router middleware.timeoutRequest
  let router ← applyLimitPayload host router middleware.limitPayload
  let router ← applyCors host router middleware.cors
  applyStaticAssets host router middleware.staticAssets

def applyConfigured (host : Host) (router : Router α) : Option Middlewares → Option (Router α)
  | none => some router
  | some middlewares => applyMiddleware host router middlewares

/-- `paths` are those of the registered routers, merged into one. -/
def assembleRouter (host : Host) (config : WebConfig) (paths : Paths α) : Option (Router α) := do
  let config := config.normalizePrefixes
  let router : Router α := { paths := paths, layers := [], services := [], fallback := none }
  let router ← applyConfigured host router config.middlewares
  return if config.socketIo then router.layer .socketIo else router

/-! ## The final router -/

/-- The router that is served: nested, or as it is, with the OpenAPI document it publishes. -/
structure Served (α : Type) where
  router : Router α
  nested : Option String
  api : Paths α

/-- The path of `openapi.json` that the documentation pages are given. -/
def openapiPath (docPrefix globalPrefix : String) : String :=
  globalPrefix ++ docPrefix ++ "/openapi.json"

/-- The document with the prefix before each of its paths. -/
def prefixedApi (globalPrefix : String) (paths : Paths α) : Paths α :=
  if globalPrefix = "" then paths
  else
    paths.entries.foldl (fun paths entry => paths.insert (globalPrefix ++ entry.1) entry.2) .empty

def finishOpenapi (host : Host) (router : Router α) (docPrefix docTitle globalPrefix : String) :
    Option (Router α × Paths α) := do
  let router ← router.nestService host docPrefix
    (.docs (openapiPath docPrefix globalPrefix) docTitle)
  return (router.layer .openApi, prefixedApi globalPrefix router.paths)

def finalizeRouter (host : Host) (router : Router α) (routerLayers : List String)
    (docPrefix docTitle globalPrefix : String) : Option (Served α) := do
  let router := routerLayers.foldl (fun router name => router.layer (.custom name)) router
  let (router, api) ← finishOpenapi host router docPrefix docTitle globalPrefix
  let router := router.layer .appState
  if globalPrefix = "" then return { router, nested := none, api }
  else if host.nests globalPrefix then return { router, nested := some globalPrefix, api }
  else none

/-- `assemble_router`, then `finalize_router` with what it returned. -/
def serve (host : Host) (config : WebConfig) (paths : Paths α) (routerLayers : List String) :
    Option (Served α) := do
  let router ← assembleRouter host config paths
  let config := config.normalizePrefixes
  finalizeRouter host router routerLayers config.docPrefix config.docTitle config.globalPrefix

end Summer.Web
