/-
The paths in the published OpenAPI document, and those that are served
(`summer-web/src/lib.rs`).

The document has the prefix before each path, the router is nested under the prefix; the two
differ in the root path alone (`published_iff`).
-/
import Mathlib.Data.List.Basic
import Summer.Web.Assembly

namespace Summer.Web

/-- Where a nested router serves its paths: the root at the prefix itself. -/
structure MountsNested (mount : String → String → String) : Prop where
  root : ∀ q, mount q "/" = q
  path : ∀ {p}, p ≠ "/" → ∀ q, mount q p = q ++ p

section
variable {α : Type} {mount : String → String → String}

/-- The path at which a path of the router is served. -/
def Served.pathOf (mount : String → String → String) (served : Served α) (p : String) : String :=
  match served.nested with
  | none => p
  | some q => mount q p

/-! ## The published paths -/

/-- The document has every path, with its item, behind the prefix. -/
theorem entries_prefixedApi (q : String) (paths : Paths α) :
    (prefixedApi q paths).entries = paths.entries.map fun entry => (q ++ entry.1, entry.2) := by
  unfold prefixedApi
  split
  · next hempty =>
      subst hempty
      simp
  · exact IndexMap.entries_rename (fun _ _ h => (String.append_right_inj q).mp h) paths

theorem pathOf_served {host : Host} {config : WebConfig} {paths : Paths α}
    {routerLayers : List String} {served : Served α}
    (h : serve host config paths routerLayers = some served) (p : String) :
    served.pathOf mount p =
      if normalizePrefix config.globalPrefix = "" then p
      else mount (normalizePrefix config.globalPrefix) p := by
  unfold Served.pathOf
  rw [(assembled_of_serve h).nested]
  by_cases hempty : normalizePrefix config.globalPrefix = ""
  · rw [if_pos hempty, if_pos hempty]
  · rw [if_neg hempty, if_neg hempty]

/-- The prefix before a path is where the path is served, unless it is the root under a
prefix. -/
theorem prefixed_eq_iff (hmount : MountsNested mount) (q p : String) :
    q ++ p = (if q = "" then p else mount q p) ↔ q = "" ∨ p ≠ "/" := by
  by_cases hempty : q = ""
  · simp [hempty]
  · rw [if_neg hempty, or_iff_right hempty]
    constructor
    · intro heq hroot
      rw [hroot, hmount.root, String.append_eq_left_iff] at heq
      revert heq
      decide
    · intro hp
      rw [hmount.path hp]

section
variable {host : Host} {config : WebConfig} {paths : Paths α} {routerLayers : List String}
variable {served : Served α}

theorem api_entries_of_serve (h : serve host config paths routerLayers = some served) :
    served.api.entries = paths.entries.map fun entry =>
      (normalizePrefix config.globalPrefix ++ entry.1, entry.2) := by
  rw [(assembled_of_serve h).api, entries_prefixedApi]

/-- The documentation is given the URL of the document, under every prefix. -/
theorem docs_url_of_serve (hmount : MountsNested mount)
    (h : serve host config paths routerLayers = some served) {path url title : String}
    (hmem : (path, Service.docs url title) ∈ served.router.services) :
    url = served.pathOf mount (mount path "/openapi.json") := by
  obtain ⟨rfl, rfl, _⟩ := ((assembled_of_serve h).docs path url title).mp hmem
  have hfile : mount (normalizePrefix config.docPrefix) "/openapi.json" =
      normalizePrefix config.docPrefix ++ "/openapi.json" :=
    hmount.path (by decide) _
  have hroot : normalizePrefix config.docPrefix ++ "/openapi.json" ≠ "/" := by
    intro heq
    have hlength := congrArg String.length heq
    rw [String.length_append, show "/openapi.json".length = 13 from rfl,
      show "/".length = 1 from rfl] at hlength
    omega
  rw [pathOf_served h, hfile, ← (prefixed_eq_iff hmount _ _).mpr (.inr hroot), openapiPath,
    String.append_assoc]

theorem api_entries_iff (hmount : MountsNested mount)
    (h : serve host config paths routerLayers = some served) :
    served.api.entries = paths.entries.map (fun entry =>
        (served.pathOf mount entry.1, entry.2)) ↔
      normalizePrefix config.globalPrefix = "" ∨ "/" ∉ paths.keys := by
  rw [api_entries_of_serve h, List.map_inj_left]
  simp only [Prod.mk.injEq, and_true, pathOf_served h, prefixed_eq_iff hmount]
  constructor
  · intro hall
    by_cases hempty : normalizePrefix config.globalPrefix = ""
    · exact .inl hempty
    · right
      intro hmem
      obtain ⟨entry, hentry, hroot⟩ := List.mem_map.mp hmem
      exact ((hall entry hentry).resolve_left hempty) hroot
  · intro hright entry hentry
    rcases hright with hempty | hnone
    · exact .inl hempty
    · right
      intro hroot
      exact hnone (List.mem_map.mpr ⟨entry, hentry, hroot⟩)

end

/-- The document publishes the served paths, each with its item, no two of them fall together,
and the documentation is given the URL of the document, exactly if there is no prefix or the
root path is not documented. -/
theorem published_iff (hmount : MountsNested mount) {host : Host} {config : WebConfig}
    {paths : Paths α} {routerLayers : List String} {served : Served α}
    (hserve : serve host config paths routerLayers = some served) :
    (served.api.entries = paths.entries.map (fun entry =>
          (served.pathOf mount entry.1, entry.2)) ∧
        served.api.entries.length = paths.entries.length ∧
        ∀ path url title, (path, Service.docs url title) ∈ served.router.services →
          url = served.pathOf mount (mount path "/openapi.json")) ↔
      normalizePrefix config.globalPrefix = "" ∨ "/" ∉ paths.keys := by
  have hlength : served.api.entries.length = paths.entries.length := by
    rw [api_entries_of_serve hserve, List.length_map]
  rw [← api_entries_iff hmount hserve]
  constructor
  · intro h
    exact h.1
  · intro h
    exact ⟨h, hlength, fun _ _ _ => docs_url_of_serve hmount hserve⟩

end

namespace Sample

def mount (q p : String) : String := if p = "/" then q else q ++ p

theorem mount_mounts : MountsNested mount := by
  constructor
  · intro q
    exact if_pos rfl
  · intro p hp q
    exact if_neg hp

def paths (keys : List String) (h : keys.Nodup) : Paths Unit :=
  { entries := keys.map fun key => (key, ())
    nodup := by
      rw [List.map_map, show Prod.fst ∘ (fun key : String => (key, ())) = id from rfl, List.map_id]
      exact h }

end Sample

/-- Two documented paths under a prefix: published where they are served, and the documentation
finds the document. -/
theorem users_published :
    ∃ served, serve Sample.host (Sample.config "api" none)
        (Sample.paths ["/users", "/users/{id}"] (by decide)) [] = some served ∧
      served.api.entries = [("/api/users", ()), ("/api/users/{id}", ())] ∧
      served.api.entries =
        (Sample.paths ["/users", "/users/{id}"] (by decide)).entries.map (fun entry =>
          (served.pathOf Sample.mount entry.1, entry.2)) ∧
      served.api.entries.length = 2 ∧
      ∀ path url title, (path, Service.docs url title) ∈ served.router.services →
        url = served.pathOf Sample.mount (Sample.mount path "/openapi.json") := by
  refine ⟨_, rfl, rfl, ?_⟩
  have hiff := @published_iff Unit Sample.mount Sample.mount_mounts Sample.host
    (Sample.config "api" none) (Sample.paths ["/users", "/users/{id}"] (by decide)) [] _ rfl
  exact hiff.mpr (.inr (by decide))

/-- The root path is published with a slash at its end, and served without one. -/
theorem root_published_with_slash :
    ∃ served, serve Sample.host (Sample.config "api" none)
        (Sample.paths ["/", "/users"] (by decide)) [] = some served ∧
      served.api.keys = ["/api/", "/api/users"] ∧
      served.pathOf Sample.mount "/" = "/api" ∧
      ¬ served.api.entries = (Sample.paths ["/", "/users"] (by decide)).entries.map fun entry =>
          (served.pathOf Sample.mount entry.1, entry.2) := by
  refine ⟨_, rfl, rfl, rfl, ?_⟩
  intro h
  have hkeys := congrArg (List.map Prod.fst) h
  revert hkeys
  decide

end Summer.Web
