/-
The URL prefixes of the web plugin (`summer-web/src/config.rs` and `lib.rs`).

A normalised prefix is empty or is below the root.  `finalize_router` leaves an empty global
prefix alone, `finish_openapi` nests the documentation in any case, so where axum refuses no
prefix but the empty one and the root, the router is finished exactly if something is left of
`doc_prefix` (`prefixed_iff`).
-/
import Mathlib.Logic.Relation
import Summer.Web.Assembly

namespace Summer.Web

/-- The second spelling has a leading slash where the first has none, or one more trailing
slash. -/
inductive Respelled : String → String → Prop
  | leading {pref : String} (h : pref.toList.head? ≠ some '/') : Respelled pref ("/" ++ pref)
  | trailing (pref : String) : Respelled pref (pref ++ "/")

abbrev SameSpelling : String → String → Prop := Relation.EqvGen Respelled

/-- axum nests nothing at an empty path or at the root, and has nothing else against the prefixes
of the configuration, such as a parameter in them or a route that is there already. -/
structure NestsPrefixes (host : Host) (config : WebConfig) : Prop where
  refuses : ∀ q, q = "" ∨ q = "/" → host.nests q = false
  accepts : ∀ q, q = normalizePrefix config.docPrefix ∨ q = normalizePrefix config.globalPrefix →
    q ≠ "" → q ≠ "/" → host.nests q = true

/-- What is asked of the prefixes of a configuration.  `α` is the type of the path items. -/
structure Prefixed (α : Type) (host : Host) (config : WebConfig) : Prop where
  global : Shaped config.normalizePrefixes.globalPrefix
  doc : Shaped config.normalizePrefixes.docPrefix
  again : config.normalizePrefixes.normalizePrefixes = config.normalizePrefixes
  globalSpelling : ∀ pref, SameSpelling config.globalPrefix pref →
    normalizePrefix pref = config.normalizePrefixes.globalPrefix
  docSpelling : ∀ pref, SameSpelling config.docPrefix pref →
    normalizePrefix pref = config.normalizePrefixes.docPrefix
  starts : ∀ (router : Router α) (routerLayers : List String), ∃ served,
    finalizeRouter host router routerLayers config.normalizePrefixes.docPrefix
        config.normalizePrefixes.docTitle config.normalizePrefixes.globalPrefix = some served ∧
      (∀ q, served.nested = some q → q ≠ "") ∧
      (config.normalizePrefixes.docPrefix, Service.docs
        (openapiPath config.normalizePrefixes.docPrefix config.normalizePrefixes.globalPrefix)
        config.normalizePrefixes.docTitle) ∈ served.router.services ∧
      config.normalizePrefixes.docPrefix ≠ ""

/-! ## Normalising -/

/-- Nothing happens to a prefix that has its shape already. -/
theorem normalizePrefix_of_shaped {pref : String} (h : Shaped pref) :
    normalizePrefix pref = pref := by
  rcases h with rfl | ⟨hhead, hlast⟩
  · rfl
  · rw [normalizePrefix_eq, withSlash, if_pos hhead, List.rdropWhile_eq_self_iff.mpr,
      String.ofList_toList]
    intro hne hslash
    rw [List.getLast?_eq_some_getLast hne] at hlast
    exact hlast (congrArg some (of_decide_eq_true hslash))

theorem normalizePrefix_of_respelled {pref pref' : String} (h : Respelled pref pref') :
    normalizePrefix pref = normalizePrefix pref' := by
  rw [normalizePrefix_eq, normalizePrefix_eq]
  congr 1
  cases h with
  | leading hhead =>
      rw [String.toList_append, show "/".toList = ['/'] from rfl, withSlash, if_neg hhead]
      rfl
  | trailing =>
      rw [String.toList_append, show "/".toList = ['/'] from rfl]
      cases hchars : pref.toList with
      | nil => rfl
      | cons c rest =>
          have happend : withSlash (c :: rest ++ ['/']) = withSlash (c :: rest) ++ ['/'] := by
            unfold withSlash
            rw [List.cons_append, List.head?_cons, List.head?_cons]
            split <;> rfl
          rw [happend, List.rdropWhile_concat_pos _ _ _ (by decide)]

theorem normalizePrefix_of_same {pref pref' : String} (h : SameSpelling pref pref') :
    normalizePrefix pref = normalizePrefix pref' := by
  induction h with
  | rel _ _ hrespelled => exact normalizePrefix_of_respelled hrespelled
  | refl => rfl
  | symm _ _ _ ih => exact ih.symm
  | trans _ _ _ _ _ ih ih' => exact ih.trans ih'

theorem normalizePrefixes_again (config : WebConfig) :
    config.normalizePrefixes.normalizePrefixes = config.normalizePrefixes := by
  unfold WebConfig.normalizePrefixes
  simp only [normalizePrefix_of_shaped (shaped_normalizePrefix _)]

/-- Nothing but slashes leaves nothing. -/
theorem normalizePrefix_ne_empty_iff {pref : String} :
    normalizePrefix pref ≠ "" ↔ ∃ c ∈ pref.toList, c ≠ '/' := by
  have hnil : normalizePrefix pref = "" ↔ ∀ c ∈ withSlash pref.toList, c = '/' := by
    rw [← String.toList_inj, toList_normalizePrefix, show "".toList = [] from rfl,
      List.rdropWhile_eq_nil_iff]
    simp only [decide_eq_true_eq]
  have hslash : (∀ c ∈ withSlash pref.toList, c = '/') ↔ ∀ c ∈ pref.toList, c = '/' := by
    unfold withSlash
    split
    · rfl
    · rw [List.forall_mem_cons, and_iff_right rfl]
  rw [ne_eq, hnil, hslash]
  simp only [not_forall, exists_prop, ne_eq]

/-! ## The final router -/

section
variable {α : Type} {host : Host} {config : WebConfig}

/-- Of the prefixes of the configuration, axum refuses the empty ones. -/
theorem NestsPrefixes.nests_iff (h : NestsPrefixes host config) {q : String}
    (hq : q = normalizePrefix config.docPrefix ∨ q = normalizePrefix config.globalPrefix) :
    host.nests q ↔ q ≠ "" := by
  have hshaped : Shaped q := by
    rcases hq with rfl | rfl
    · exact shaped_normalizePrefix _
    · exact shaped_normalizePrefix _
  constructor
  · intro hnests hempty
    rw [h.refuses q (.inl hempty)] at hnests
    cases hnests
  · intro hne
    exact h.accepts q hq hne (hshaped.belowRoot hne).2

theorem finishOpenapi_isSome_iff {router : Router α} {docPrefix docTitle globalPrefix : String} :
    (finishOpenapi host router docPrefix docTitle globalPrefix).isSome ↔ host.nests docPrefix := by
  unfold finishOpenapi Router.nestService
  by_cases hnests : host.nests docPrefix
  · rw [if_pos hnests]
    exact iff_of_true rfl hnests
  · rw [if_neg hnests]
    exact iff_of_false Bool.false_ne_true hnests

/-- The router is finished where axum nests the documentation, and the router under a prefix that
is not empty. -/
theorem finalizeRouter_isSome_iff {router : Router α} {routerLayers : List String}
    {docPrefix docTitle globalPrefix : String} :
    (finalizeRouter host router routerLayers docPrefix docTitle globalPrefix).isSome ↔
      host.nests docPrefix ∧ (globalPrefix = "" ∨ host.nests globalPrefix) := by
  rw [← @finishOpenapi_isSome_iff α host
    (routerLayers.foldl (fun router name => router.layer (.custom name)) router) docPrefix docTitle
    globalPrefix]
  unfold finalizeRouter
  cases hfinish : finishOpenapi host
      (routerLayers.foldl (fun router name => router.layer (.custom name)) router)
      docPrefix docTitle globalPrefix with
  | none => simp [hfinish]
  | some finished =>
      simp only [hfinish, bind, Option.bind_some, Option.isSome_some, true_and]
      by_cases hempty : globalPrefix = ""
      · rw [if_pos hempty]
        exact iff_of_true rfl (.inl hempty)
      · rw [if_neg hempty, or_iff_right hempty]
        by_cases hnests : host.nests globalPrefix
        · rw [if_pos hnests]
          exact iff_of_true rfl hnests
        · rw [if_neg hnests]
          exact iff_of_false Bool.false_ne_true hnests

/-- Under normalised prefixes the documentation needs one, the router may do without. -/
theorem NestsPrefixes.finalizeRouter_isSome_iff (h : NestsPrefixes host config)
    {router : Router α} {routerLayers : List String} {docTitle : String} :
    (finalizeRouter host router routerLayers (normalizePrefix config.docPrefix) docTitle
      (normalizePrefix config.globalPrefix)).isSome ↔ normalizePrefix config.docPrefix ≠ "" := by
  rw [Summer.Web.finalizeRouter_isSome_iff, h.nests_iff (.inl rfl), h.nests_iff (.inr rfl)]
  exact and_iff_left (em _)

/-- What the plugin has assembled is served exactly if something is left of `doc_prefix`. -/
theorem serve_isSome_iff (h : NestsPrefixes host config) {paths : Paths α}
    {routerLayers : List String} :
    (serve host config paths routerLayers).isSome ↔
      (assembleRouter host config paths).isSome ∧ ∃ c ∈ config.docPrefix.toList, c ≠ '/' := by
  rw [← normalizePrefix_ne_empty_iff]
  unfold serve
  cases assembleRouter host config paths with
  | none => simp
  | some router =>
      simp only [bind, Option.bind_some, Option.isSome_some, true_and]
      exact h.finalizeRouter_isSome_iff

/-- For every configuration: where axum refuses the empty path and the root only, all that is
asked of the prefixes holds exactly if `doc_prefix` has a character other than a slash. -/
theorem prefixed_iff (hnests : NestsPrefixes host config) :
    Prefixed α host config ↔ ∃ c ∈ config.docPrefix.toList, c ≠ '/' := by
  rw [← normalizePrefix_ne_empty_iff]
  constructor
  · intro h
    obtain ⟨_, _, _, _, hne⟩ :=
      h.starts { paths := .empty, layers := [], services := [], fallback := none } []
    exact hne
  · intro hne
    refine ⟨shaped_normalizePrefix _, shaped_normalizePrefix _, normalizePrefixes_again config,
      fun pref h => (normalizePrefix_of_same h).symm,
      fun pref h => (normalizePrefix_of_same h).symm, ?_⟩
    intro router routerLayers
    obtain ⟨served, hserved⟩ :=
      Option.isSome_iff_exists.mp (hnests.finalizeRouter_isSome_iff.mpr hne)
    obtain ⟨finished, hfinish, hrouter, hnested⟩ := finalizeRouter_eq hserved
    refine ⟨served, hserved, ?_, ?_, hne⟩
    · intro q hq hempty
      rw [hnested] at hq
      split at hq
      · cases hq
      · next hglobal => exact hglobal (Option.some.inj hq ▸ hempty)
    · rw [hrouter]
      exact ((finishOpenapi_eq hfinish).2.2 _ _ _).mpr (.inr ⟨rfl, rfl, rfl⟩)

end

theorem Sample.host_nests (config : WebConfig) : NestsPrefixes Sample.host config where
  refuses := fun q hq => by
    rcases hq with rfl | rfl
    · decide
    · decide
  accepts := fun q _ hne hroot => decide_eq_true ⟨hne, hroot⟩

/-- The documentation at `docs/`, and the routes under `api`. -/
theorem docs_prefixed :
    Prefixed Unit Sample.host { Sample.config "api" none with docPrefix := "docs/" } :=
  (prefixed_iff (Sample.host_nests _)).mpr ⟨'d', List.mem_cons_self, by decide⟩

/-- With slashes only for `doc_prefix` no router is finished, whatever was assembled and wherever
axum nests, if not at the empty path. -/
theorem slashes_for_docs :
    (∀ (host : Host) (router : Router Unit), host.nests "" = false →
        finalizeRouter host router [] (normalizePrefix "///") "" (normalizePrefix "/api/") =
          none) ∧
      NestsPrefixes Sample.host { Sample.config "/api/" none with docPrefix := "///" } ∧
      ¬ Prefixed Unit Sample.host { Sample.config "/api/" none with docPrefix := "///" } := by
  have hempty : normalizePrefix "///" = "" := by decide
  have hnone : ∀ (host : Host) (router : Router Unit), host.nests "" = false →
      finalizeRouter host router [] (normalizePrefix "///") "" (normalizePrefix "/api/") =
        none := by
    intro host router hnests
    rw [← Option.not_isSome_iff_eq_none, finalizeRouter_isSome_iff, hempty, hnests]
    exact fun h => Bool.false_ne_true h.1
  refine ⟨hnone, Sample.host_nests _, fun h => ?_⟩
  obtain ⟨_, _, _, _, hne⟩ :=
    h.starts { paths := .empty, layers := [], services := [], fallback := none } []
  exact hne hempty

end Summer.Web
