/-
The instance of the problem details that a handler answers with
(`summer-web/src/problem_details.rs`).

Every request is a task that is polled on some thread, with any others in between.  The
instance is the URI that the client sent if the capturing layer is there and no prefix is
nested around it (`instance_iff`).
-/
import Mathlib.Data.List.Basic
import Summer.Lib.TaskLocal
import Summer.Web.Assembly
import Summer.Web.ProblemDetails

namespace Summer.Web

open TaskLocal

/-- `origin` is the scheme and the authority, where the request line has them. -/
structure Uri where
  origin : String
  pathAndQuery : String
deriving DecidableEq, Repr

def Uri.toString (uri : Uri) : String := uri.origin ++ uri.pathAndQuery

/-- What a nested router makes of a URI: the part that matches the prefix is gone, and the rest
starts with a slash. -/
structure StripsPrefix (strip : String → Uri → Option Uri) : Prop where
  strips : ∀ {q uri inner}, BelowRoot q → strip q uri = some inner →
    ∃ part rest, 2 ≤ part.length ∧ uri.pathAndQuery = part ++ rest ∧
      inner.origin = uri.origin ∧ (inner.pathAndQuery = rest ∨ inner.pathAndQuery = "/" ++ rest)

/-! ## Serving a request -/

/-- A request whose handler is pending for some polls and then returns problem details. -/
structure Request where
  uri : Uri
  pending : Nat
  problem : ProblemDetails

/-- The `k`-th poll of the handler; the response is built in the poll that is ready. -/
def Request.handle (request : Request) (k : Nat) : Poll String (Option Response) := fun slot =>
  (if k = request.pending then some (request.problem.intoResponse slot) else none, slot)

section
variable {R α : Type}

/-- `capture_request_uri_middleware` runs what it wraps in the scope of the URI it sees; the
other layers hand the request on as it is. -/
def pollLayers (uri : Uri) (handler : Poll String R) : List Layer → Poll String R
  | [] => handler
  | .captureRequestUri :: layers => scope uri.toString (pollLayers uri handler layers)
  | _ :: layers => pollLayers uri handler layers

/-- A URI without the prefix gets to no handler. -/
def pollServed (strip : String → Uri → Option Uri) (served : Served α) (uri : Uri)
    (handler : Poll String (Option R)) : Poll String (Option R) :=
  match served.nested with
  | none => pollLayers uri handler served.router.layers
  | some q =>
    match strip q uri with
    | none => fun slot => (none, slot)
    | some inner => pollLayers inner handler served.router.layers

/-- The tasks of the requests. -/
def tasks {I : Type} (strip : String → Uri → Option Uri) (served : Served α)
    (requests : I → Request) (i : I) (k : Nat) : Poll String (Option Response) :=
  pollServed strip served (requests i).uri ((requests i).handle k)

/-! ## What the handler sees -/

theorem pollLayers_cons_of_ne {layer : Layer} (h : layer ≠ .captureRequestUri) (uri : Uri)
    (handler : Poll String R) (layers : List Layer) :
    pollLayers uri handler (layer :: layers) = pollLayers uri handler layers := by
  cases layer with
  | captureRequestUri => exact absurd rfl h
  | _ => rfl

theorem restores_pollLayers (uri : Uri) {handler : Poll String R} (h : Restores handler)
    (layers : List Layer) : Restores (pollLayers uri handler layers) := by
  induction layers with
  | nil => exact h
  | cons layer layers ih =>
      by_cases hcapture : layer = .captureRequestUri
      · subst hcapture
        exact restores_scope _ _
      · rw [pollLayers_cons_of_ne hcapture]
        exact ih

theorem restores_pollServed (strip : String → Uri → Option Uri) (served : Served α) (uri : Uri)
    {handler : Poll String (Option R)} (h : Restores handler) :
    Restores (pollServed strip served uri handler) := by
  unfold pollServed
  split
  · exact restores_pollLayers uri h _
  · split
    · exact fun _ => rfl
    · exact restores_pollLayers _ h _

theorem restores_tasks {I : Type} (strip : String → Uri → Option Uri) (served : Served α)
    (requests : I → Request) (i : I) (k : Nat) : Restores (tasks strip served requests i k) :=
  restores_pollServed strip served _ fun _ => rfl

theorem pollLayers_fst (uri : Uri) (handler : Poll String R) (layers : List Layer)
    (slot : Option String) :
    (pollLayers uri handler layers slot).1 =
      (handler (if .captureRequestUri ∈ layers then some uri.toString else slot)).1 := by
  induction layers generalizing slot with
  | nil => rfl
  | cons layer layers ih =>
      by_cases hcapture : layer = .captureRequestUri
      · subst hcapture
        rw [if_pos List.mem_cons_self]
        show (pollLayers uri handler layers (some uri.toString)).1 = _
        rw [ih, ite_self]
      · have hmem : .captureRequestUri ∈ layer :: layers ↔ Layer.captureRequestUri ∈ layers := by
          rw [List.mem_cons, or_iff_right (Ne.symm hcapture)]
        rw [pollLayers_cons_of_ne hcapture, ih, if_congr hmem rfl rfl]

end

/-! ## The instance -/

section
variable {α T I : Type} [DecidableEq T] [DecidableEq I]
variable {strip : String → Uri → Option Uri} {host : Host} {config : WebConfig} {paths : Paths α}
variable {routerLayers : List String} {served : Served α}

/-- The URI that the handler of a request finds. -/
def capturedUri (config : WebConfig) (inner : Uri) : Option String :=
  if config.middlewares.isSome then some inner.toString else none

/-- A response is made of the handler's problem and of its own request's URI, whichever other
requests are served meanwhile. -/
theorem response_eq (hserve : serve host config paths routerLayers = some served)
    {requests : I → Request} {polls : List (T × I)} {i : I} {response : Response}
    (h : some response ∈ (run (tasks strip served requests) polls).results i) :
    ∃ inner, (if normalizePrefix config.globalPrefix = "" then some (requests i).uri
        else strip (normalizePrefix config.globalPrefix) (requests i).uri) = some inner ∧
      response = (requests i).problem.intoResponse (capturedUri config inner) := by
  obtain ⟨hcapture, hnested, _, _⟩ := assembled_of_serve hserve
  obtain ⟨k, hk⟩ := results_run (restores_tasks strip served requests) h
  have hhandle : ∀ inner, some response =
      (pollLayers inner ((requests i).handle k) served.router.layers none).1 →
      response = (requests i).problem.intoResponse (capturedUri config inner) := by
    intro inner hpoll
    rw [pollLayers_fst, if_congr hcapture rfl rfl] at hpoll
    unfold Request.handle at hpoll
    simp only at hpoll
    split at hpoll
    · exact Option.some.inj hpoll
    · cases hpoll
  unfold tasks pollServed at hk
  rw [hnested] at hk
  by_cases hempty : normalizePrefix config.globalPrefix = ""
  · rw [if_pos hempty] at hk ⊢
    exact ⟨_, rfl, hhandle _ hk⟩
  · rw [if_neg hempty] at hk ⊢
    simp only at hk
    cases hstrip : strip (normalizePrefix config.globalPrefix) (requests i).uri with
    | none =>
        rw [hstrip] at hk
        cases hk
    | some inner =>
        rw [hstrip] at hk
        exact ⟨inner, rfl, hhandle inner hk⟩

/-- What is left of a URI in a nested router is not the URI. -/
theorem stripped_ne (hstrip : StripsPrefix strip) {q : String} {uri inner : Uri}
    (hq : BelowRoot q) (h : strip q uri = some inner) : inner.toString ≠ uri.toString := by
  obtain ⟨part, rest, hpart, hpath, horigin, hrest⟩ := hstrip.strips hq h
  intro heq
  have hlength := congrArg String.length heq
  unfold Uri.toString at hlength
  rw [hpath, horigin, String.length_append, String.length_append, String.length_append] at hlength
  rcases hrest with hrest | hrest
  · rw [hrest] at hlength
    omega
  · rw [hrest, String.length_append] at hlength
    have hslash : "/".length = 1 := rfl
    omega

/-- In every run, a response without an explicit instance has the URI of its request, as the
client sent it, exactly if the middlewares are configured and the prefix is empty; an explicit
instance is kept. -/
theorem instance_iff (hstrip : StripsPrefix strip)
    (hserve : serve host config paths routerLayers = some served) {requests : I → Request}
    {polls : List (T × I)} {i : I} {response : Response}
    (h : some response ∈ (run (tasks strip served requests) polls).results i) :
    response.body.instance =
        some ((requests i).problem.instance.getD (requests i).uri.toString) ↔
      (requests i).problem.instance.isSome ∨
        (config.middlewares.isSome ∧ normalizePrefix config.globalPrefix = "") := by
  obtain ⟨inner, hinner, rfl⟩ := response_eq hserve h
  have hpref := shaped_normalizePrefix config.globalPrefix
  show (requests i).problem.instance.or (capturedUri config inner) = _ ↔ _
  cases hinstance : (requests i).problem.instance with
  | some uri => simp
  | none =>
      simp only [Option.none_or, Option.getD_none, Option.isSome_none, Bool.false_eq_true, false_or]
      unfold capturedUri
      by_cases hmiddlewares : config.middlewares.isSome
      · rw [if_pos hmiddlewares]
        by_cases hempty : normalizePrefix config.globalPrefix = ""
        · rw [if_pos hempty] at hinner
          obtain rfl := Option.some.inj hinner
          exact iff_of_true rfl ⟨hmiddlewares, hempty⟩
        · rw [if_neg hempty] at hinner
          have hne := stripped_ne hstrip (hpref.belowRoot hempty) hinner
          exact iff_of_false (fun heq => hne (Option.some.inj heq)) fun hright => hempty hright.2
      · rw [if_neg hmiddlewares]
        exact iff_of_false nofun fun hright => hmiddlewares hright.1

end

namespace Sample

/-- Strips a literal prefix. -/
def strip (q : String) (uri : Uri) : Option Uri :=
  if q.toList <+: uri.pathAndQuery.toList then
    let rest := uri.pathAndQuery.toList.drop q.length
    if rest.head? = some '/' then some { uri with pathAndQuery := String.ofList rest }
    else if rest = [] ∨ rest.head? = some '?' then
      some { uri with pathAndQuery := "/" ++ String.ofList rest }
    else none
  else
    none

theorem two_le_length {q : String} (h : BelowRoot q) : 2 ≤ q.length := by
  obtain ⟨hslash, hroot⟩ := h
  rw [← String.length_toList]
  cases hchars : q.toList with
  | nil =>
      rw [hchars] at hslash
      cases hslash
  | cons c rest =>
      cases rest with
      | cons c' rest => simp
      | nil =>
          rw [hchars] at hslash
          obtain rfl := Option.some.inj hslash
          exact absurd (String.toList_injective hchars) hroot

theorem strip_strips : StripsPrefix strip := by
  constructor
  intro q uri inner hq h
  unfold strip at h
  split at h
  · next hpref =>
      obtain ⟨rest, hrest⟩ := hpref
      have hpath : uri.pathAndQuery = q ++ String.ofList rest := by
        apply String.toList_injective
        rw [String.toList_append, String.toList_ofList, hrest]
      have hdrop : uri.pathAndQuery.toList.drop q.length = rest := by
        rw [← hrest, ← String.length_toList, List.drop_left]
      simp only [hdrop] at h
      refine ⟨q, String.ofList rest, two_le_length hq, hpath, ?_⟩
      split at h
      · cases h
        exact ⟨rfl, .inl rfl⟩
      · split at h
        · cases h
          exact ⟨rfl, .inr rfl⟩
        · cases h
  · cases h

/-- Two requests under a prefix. -/
def requests (pref : String) (second : Bool) : Request :=
  { uri := { origin := "", pathAndQuery := pref ++ if second then "/orders/1" else "/users/999" }
    pending := if second then 0 else 1
    problem := .notFound (if second then "order" else "user") }

/-- The second request is answered between the polls of the first one. -/
def polls : List (Unit × Bool) := [((), false), ((), true), ((), false)]

end Sample

theorem users_instance :
    ∃ served,
      serve Sample.host (Sample.config "" (some Sample.middlewares)) (.empty : Paths Unit) [] =
        some served ∧
      ∃ response, some response ∈
          (run (tasks Sample.strip served (Sample.requests "")) Sample.polls).results false ∧
        response.body.instance = some "/users/999" := by
  refine ⟨_, rfl, (ProblemDetails.notFound "user").intoResponse (some "/users/999"), ?_, ?_⟩
  · exact List.mem_cons_of_mem _ (List.mem_singleton.mpr rfl)
  · have hiff := @instance_iff Unit Unit Bool _ _ Sample.strip Sample.host
      (Sample.config "" (some Sample.middlewares)) .empty [] _ Sample.strip_strips rfl
      (Sample.requests "") Sample.polls false _
      (List.mem_cons_of_mem _ (List.mem_singleton.mpr rfl))
    exact hiff.mpr (.inr ⟨rfl, rfl⟩)

/-- Without a `[web.middlewares]` section there is no instance, and under a prefix it is not
what the client sent. -/
theorem users_instance_lost :
    (∃ served, serve Sample.host (Sample.config "" none) (.empty : Paths Unit) [] = some served ∧
      ∃ response, some response ∈
          (run (tasks Sample.strip served (Sample.requests "")) Sample.polls).results false ∧
        response.body.instance = none) ∧
    ∃ served, serve Sample.host (Sample.config "api" (some Sample.middlewares))
        (.empty : Paths Unit) [] = some served ∧
      ∃ response, some response ∈
          (run (tasks Sample.strip served (Sample.requests "/api")) Sample.polls).results false ∧
        response.body.instance = some "/users/999" ∧
        response.body.instance ≠ some (Sample.requests "/api" false).uri.toString := by
  constructor
  · refine ⟨_, rfl, (ProblemDetails.notFound "user").intoResponse none, ?_, rfl⟩
    exact List.mem_cons_of_mem _ (List.mem_singleton.mpr rfl)
  · refine ⟨_, rfl, (ProblemDetails.notFound "user").intoResponse (some "/users/999"), ?_, rfl, ?_⟩
    · exact List.mem_cons_of_mem _ (List.mem_singleton.mpr rfl)
    · intro h
      have huri : "/users/999" = "" ++ ("/api" ++ "/users/999") := Option.some.inj h
      revert huri
      decide

end Summer.Web
