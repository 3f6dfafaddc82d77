/-
What the steps of the assembly leave of a router.

The middlewares wrap layers around the router and may nest a directory in it; what is served
then follows from the configuration (`assembled_of_serve`).
-/
import Mathlib.Data.List.Basic
import Summer.Web.Router

namespace Summer.Web

/-! ## Prefixes -/

/-- Empty, or with a leading slash and no trailing one. -/
def Shaped (pref : String) : Prop :=
  pref = "" ∨ (pref.toList.head? = some '/' ∧ pref.toList.getLast? ≠ some '/')

/-- A path below the root. -/
def BelowRoot (path : String) : Prop := path.toList.head? = some '/' ∧ path ≠ "/"

/-- The characters of a prefix once `insert` has run. -/
def withSlash (chars : List Char) : List Char :=
  if chars.head? = some '/' then chars else '/' :: chars

theorem head?_withSlash (chars : List Char) : (withSlash chars).head? = some '/' := by
  unfold withSlash
  split
  · assumption
  · rfl

/-- The empty prefix is no special case: its slash is dropped again. -/
theorem normalizePrefix_eq (pref : String) :
    normalizePrefix pref = String.ofList ((withSlash pref.toList).rdropWhile (· = '/')) := by
  unfold normalizePrefix
  by_cases hempty : pref = ""
  · rw [if_pos hempty, hempty]
    rfl
  · rw [if_neg hempty]
    rfl

theorem toList_normalizePrefix (pref : String) :
    (normalizePrefix pref).toList = (withSlash pref.toList).rdropWhile (· = '/') := by
  rw [normalizePrefix_eq, String.toList_ofList]

theorem shaped_normalizePrefix (pref : String) : Shaped (normalizePrefix pref) := by
  by_cases hempty : (withSlash pref.toList).rdropWhile (· = '/') = []
  · left
    rw [normalizePrefix_eq, hempty, String.ofList_nil]
  · right
    rw [toList_normalizePrefix]
    have hlast := List.rdropWhile_last_not (fun c : Char => decide (c = '/')) _ hempty
    constructor
    · obtain ⟨dropped, hdropped⟩ :=
        @List.rdropWhile_prefix Char (fun c => decide (c = '/')) (withSlash pref.toList)
      have hhead := head?_withSlash pref.toList
      rw [← hdropped, List.head?_append_of_ne_nil _ hempty] at hhead
      exact hhead
    · rw [List.getLast?_eq_some_getLast hempty]
      intro heq
      rw [Option.some.inj heq] at hlast
      exact hlast rfl

/-- A prefix of the right shape is below the root, if there is one. -/
theorem Shaped.belowRoot {pref : String} (h : Shaped pref) (hne : pref ≠ "") : BelowRoot pref := by
  obtain ⟨hhead, hlast⟩ := h.resolve_left hne
  refine ⟨hhead, ?_⟩
  intro hroot
  rw [hroot] at hlast
  exact hlast rfl

/-! ## Wrapping -/

section
variable {α : Type} {host : Host} {router router' : Router α}

/-- One router is the other with more around it: no layer of it captures the URI, the documented
paths are the same and so are the nested pages of the documentation. -/
structure Wraps (router router' : Router α) : Prop where
  layers : ∃ outer, router'.layers = outer ++ router.layers ∧ .captureRequestUri ∉ outer
  paths : router'.paths = router.paths
  docs : ∀ path url title, (path, .docs url title) ∈ router'.services ↔
    (path, .docs url title) ∈ router.services

theorem Wraps.refl (router : Router α) : Wraps router router :=
  ⟨⟨[], rfl, List.not_mem_nil⟩, rfl, fun _ _ _ => Iff.rfl⟩

theorem Wraps.trans {router'' : Router α} (h : Wraps router router')
    (h' : Wraps router' router'') : Wraps router router'' := by
  constructor
  · obtain ⟨outer, hlayers, hmem⟩ := h.layers
    obtain ⟨outer', hlayers', hmem'⟩ := h'.layers
    refine ⟨outer' ++ outer, ?_, ?_⟩
    · rw [hlayers', hlayers, List.append_assoc]
    · rw [List.mem_append, not_or]
      exact ⟨hmem', hmem⟩
  · exact h'.paths.trans h.paths
  · intro path url title
    exact (h'.docs path url title).trans (h.docs path url title)

theorem Wraps.layer {layer : Layer} (h : layer ≠ .captureRequestUri) (router : Router α) :
    Wraps router (router.layer layer) :=
  ⟨⟨[layer], rfl, by simp [Ne.symm h]⟩, rfl, fun _ _ _ => Iff.rfl⟩

theorem Wraps.mem_iff (h : Wraps router router') :
    Layer.captureRequestUri ∈ router'.layers ↔ .captureRequestUri ∈ router.layers := by
  obtain ⟨outer, hlayers, hmem⟩ := h.layers
  rw [hlayers, List.mem_append, or_iff_right hmem]

theorem nestService_eq {path : String} {service : Service}
    (h : router.nestService host path service = some router') :
    host.nests path ∧
      router' = { router with services := router.services ++ [(path, service)] } := by
  unfold Router.nestService at h
  split at h
  · next hnests => exact ⟨hnests, (Option.some.inj h).symm⟩
  · cases h

/-! ## The middlewares -/

theorem wraps_enable (c : Prop) [Decidable c] (router : Router α) (layer : Layer)
    (h : layer ≠ .captureRequestUri) : Wraps router (if c then router.layer layer else router) := by
  split
  · exact Wraps.layer h router
  · exact Wraps.refl router

theorem wraps_applyLogger (router : Router α) (logger : Option TraceLoggerMiddleware) :
    Wraps router (applyLogger router logger) := by
  unfold applyLogger
  split
  · exact Wraps.layer (by nofun) _
  · exact Wraps.refl _

theorem wraps_applyTimeout (router : Router α) (timeout : Option TimeoutRequestMiddleware) :
    Wraps router (applyTimeout router timeout) := by
  unfold applyTimeout
  split
  · exact Wraps.layer (by nofun) _
  · exact Wraps.refl _

theorem wraps_applyLimitPayload {limit : Option LimitPayloadMiddleware}
    (h : applyLimitPayload host router limit = some router') : Wraps router router' := by
  unfold applyLimitPayload at h
  split at h
  · obtain ⟨bytes, _, rfl⟩ := Option.map_eq_some_iff.mp h
    exact (Wraps.layer (by nofun) router).trans (Wraps.layer (by nofun) _)
  · cases h
    exact Wraps.refl _

theorem wraps_applyCors {cors : Option CorsMiddleware}
    (h : applyCors host router cors = some router') : Wraps router router' := by
  unfold applyCors at h
  split at h
  · split at h
    · obtain ⟨layer, _, rfl⟩ := Option.map_eq_some_iff.mp h
      exact Wraps.layer (by nofun) router
    · cases h
      exact Wraps.refl _
  · cases h
    exact Wraps.refl _

theorem wraps_applyStaticDir {assets : StaticAssetsMiddleware}
    (h : applyStaticDir host router assets = some router') : Wraps router router' := by
  unfold applyStaticDir at h
  split at h
  · cases h
  · simp only at h
    split at h
    · cases h
      exact ⟨⟨[], rfl, List.not_mem_nil⟩, rfl, fun _ _ _ => Iff.rfl⟩
    · obtain ⟨_, rfl⟩ := nestService_eq h
      exact ⟨⟨[], rfl, List.not_mem_nil⟩, rfl, by simp⟩

theorem wraps_applyStaticAssets {assets : Option StaticAssetsMiddleware}
    (h : applyStaticAssets host router assets = some router') : Wraps router router' := by
  unfold applyStaticAssets at h
  split at h
  · split at h
    · exact wraps_applyStaticDir h
    · cases h
      exact Wraps.refl _
  · cases h
    exact Wraps.refl _

/-- The middlewares are around the layer that captures the URI. -/
theorem wraps_applyMiddleware {middlewares : Middlewares}
    (h : applyMiddleware host router middlewares = some router') :
    Wraps (router.layer .captureRequestUri) router' := by
  unfold applyMiddleware at h
  simp only [bind, Option.bind_eq_some_iff] at h
  obtain ⟨limited, hlimit, cored, hcors, hassets⟩ := h
  have hpanic := wraps_enable (some { enable := true } = middlewares.catchPanic)
    (router.layer .captureRequestUri) .catchPanic nofun
  have hcompression := hpanic.trans
    (wraps_enable (some { enable := true } = middlewares.compression) _ .compression nofun)
  have hlogger := hcompression.trans (wraps_applyLogger _ middlewares.logger)
  have htimeout := hlogger.trans (wraps_applyTimeout _ middlewares.timeoutRequest)
  exact ((htimeout.trans (wraps_applyLimitPayload hlimit)).trans (wraps_applyCors hcors)).trans
    (wraps_applyStaticAssets hassets)

/-! ## The served router -/

theorem assembleRouter_eq {config : WebConfig} {paths : Paths α}
    (h : assembleRouter host config paths = some router) :
    (.captureRequestUri ∈ router.layers ↔ config.middlewares.isSome) ∧ router.paths = paths ∧
      ∀ path url title, (path, .docs url title) ∉ router.services := by
  unfold assembleRouter at h
  simp only [bind, Option.bind_eq_some_iff] at h
  obtain ⟨applied, happlied, hsocket⟩ := h
  obtain rfl := Option.some.inj hsocket
  have hwraps := wraps_enable (config.normalizePrefixes.socketIo = true) applied .socketIo nofun
  rw [hwraps.mem_iff, hwraps.paths]
  simp only [hwraps.docs]
  have hconfig : config.normalizePrefixes.middlewares = config.middlewares := rfl
  rw [hconfig] at happlied
  cases hmiddlewares : config.middlewares with
  | none =>
      rw [hmiddlewares] at happlied
      cases happlied
      simp
  | some middlewares =>
      rw [hmiddlewares] at happlied
      have hmiddleware := wraps_applyMiddleware happlied
      rw [hmiddleware.mem_iff, hmiddleware.paths]
      simp only [hmiddleware.docs]
      simp [Router.layer]

theorem wraps_routerLayers (router : Router α) (routerLayers : List String) :
    Wraps router (routerLayers.foldl (fun router name => router.layer (.custom name)) router) := by
  induction routerLayers generalizing router with
  | nil => exact Wraps.refl router
  | cons name rest ih => exact (Wraps.layer (by nofun) router).trans (ih _)

theorem finishOpenapi_eq {docPrefix docTitle globalPrefix : String} {api : Paths α}
    (h : finishOpenapi host router docPrefix docTitle globalPrefix = some (router', api)) :
    (Layer.captureRequestUri ∈ router'.layers ↔ .captureRequestUri ∈ router.layers) ∧
      api = prefixedApi globalPrefix router.paths ∧
      ∀ path url title, (path, .docs url title) ∈ router'.services ↔
        (path, .docs url title) ∈ router.services ∨
          (path = docPrefix ∧ url = openapiPath docPrefix globalPrefix ∧ title = docTitle) := by
  unfold finishOpenapi at h
  simp only [bind, Option.bind_eq_some_iff] at h
  obtain ⟨nested, hnest, hfinish⟩ := h
  obtain ⟨rfl, rfl⟩ := Prod.mk.inj (Option.some.inj hfinish)
  obtain ⟨_, rfl⟩ := nestService_eq hnest
  refine ⟨?_, rfl, ?_⟩
  · simp [Router.layer]
  · intro path url title
    simp [Router.layer]

theorem finalizeRouter_eq {routerLayers : List String} {docPrefix docTitle globalPrefix : String}
    {served : Served α}
    (h : finalizeRouter host router routerLayers docPrefix docTitle globalPrefix = some served) :
    ∃ router', finishOpenapi host
        (routerLayers.foldl (fun router name => router.layer (.custom name)) router)
        docPrefix docTitle globalPrefix = some (router', served.api) ∧
      served.router = router'.layer .appState ∧
      served.nested = (if globalPrefix = "" then none else some globalPrefix) := by
  unfold finalizeRouter at h
  simp only [bind, Option.bind_eq_some_iff] at h
  obtain ⟨⟨finished, api⟩, hfinish, hresult⟩ := h
  simp only at hresult
  split at hresult
  · next hempty =>
      cases hresult
      exact ⟨finished, hfinish, rfl, (if_pos hempty).symm⟩
  · next hempty =>
      split at hresult
      · cases hresult
        exact ⟨finished, hfinish, rfl, (if_neg hempty).symm⟩
      · cases hresult

/-- What is served for a configuration. -/
structure Assembled (config : WebConfig) (paths : Paths α) (served : Served α) : Prop where
  capture : .captureRequestUri ∈ served.router.layers ↔ config.middlewares.isSome
  nested : served.nested = if normalizePrefix config.globalPrefix = "" then none
    else some (normalizePrefix config.globalPrefix)
  api : served.api = prefixedApi (normalizePrefix config.globalPrefix) paths
  docs : ∀ path url title, (path, .docs url title) ∈ served.router.services ↔
    path = normalizePrefix config.docPrefix ∧
      url = openapiPath (normalizePrefix config.docPrefix) (normalizePrefix config.globalPrefix) ∧
      title = config.docTitle

theorem assembled_of_serve {config : WebConfig} {paths : Paths α} {routerLayers : List String}
    {served : Served α} (h : serve host config paths routerLayers = some served) :
    Assembled config paths served := by
  unfold serve at h
  simp only [bind, Option.bind_eq_some_iff] at h
  obtain ⟨assembled, hassemble, hfinalize⟩ := h
  obtain ⟨hcapture, hpaths, hdocs⟩ := assembleRouter_eq hassemble
  obtain ⟨finished, hfinish, hrouter, hnested⟩ := finalizeRouter_eq hfinalize
  obtain ⟨hcapture', hapi, hdocs'⟩ := finishOpenapi_eq hfinish
  have hlayers := wraps_routerLayers assembled routerLayers
  constructor
  · have happState := @Wraps.layer _ .appState nofun finished
    rw [hrouter, happState.mem_iff, hcapture', hlayers.mem_iff, hcapture]
  · exact hnested
  · rw [hapi, hlayers.paths, hpaths]
    rfl
  · intro path url title
    have happState := @Wraps.layer _ .appState nofun finished
    rw [hrouter, happState.docs, hdocs', hlayers.docs, or_iff_right (hdocs path url title)]
    rfl

end

namespace Sample

def host : Host :=
  { pathExists := fun _ => false
    parseByte := fun _ => none
    parseOrigin := fun _ => true
    parseHeader := fun _ => true
    parseMethod := fun _ => true
    nests := fun path => decide (path ≠ "" ∧ path ≠ "/") }

def config (globalPrefix : String) (middlewares : Option Middlewares) : WebConfig :=
  { globalPrefix := globalPrefix
    docPrefix := "/docs"
    docTitle := ""
    middlewares := middlewares
    socketIo := false }

/-- An empty `[web.middlewares]` section. -/
def middlewares : Middlewares :=
  { compression := none, limitPayload := none, logger := none, catchPanic := none,
    timeoutRequest := none, cors := none, staticAssets := none }

end Sample

end Summer.Web
