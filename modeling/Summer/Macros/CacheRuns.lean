/-
Runs of functions behind the `cache` macro.

Calls go on side by side while reads and writes of the store fail and its entries expire or are
overwritten.  Keys told apart and values that survive the encoding are assumed.  Then the
wrapper is transparent exactly when the names that it declares change nothing in the
expressions of the user, and no error comes as a plain value (`transparent_iff`).
-/
import Summer.Macros.Cache

namespace Summer.Macros.Cache

open SharedStore

variable {V A R T : Type}

theorem Returns.ok_of_value? {returns : Returns R T} {result : R} {value : T}
    (h : returns.value? result = some value) : returns.ok value = result := by
  cases returns with
  | result E T =>
      cases result with
      | error e => cases h
      | ok value' =>
          cases h
          rfl
  | plain R isErr =>
      cases h
      rfl

/-- Every value is encoded, and decoded to itself. -/
def Json.RoundTrips (json : Json T) : Prop :=
  ∀ value, ∃ text, json.toStr value = some text ∧ json.fromStr text = some value

def isRan {K X J : Type} : Effect K X J → Bool
  | .ran _ => true
  | _ => false

def Reads {K X J : Type} (trace : List (Effect K X J)) : Prop :=
  ∃ key reply, .got key reply ∈ trace

def Writes {K X J : Type} (trace : List (Effect K X J)) : Prop :=
  ∃ key entry, .put key entry ∈ trace

namespace CachedFn

/-- What the function returns as it is written. -/
def plain (f : CachedFn V A R T) (args : A) : R := f.body (f.scope args)

/-- The condition as it is written. -/
def asked (f : CachedFn V A R T) (args : A) : Bool := f.conditionHolds (f.scope args)

/-- The result is an error, or one for which `unless` is true as it is written. -/
def Unstorable (f : CachedFn V A R T) (args : A) (result : R) : Prop :=
  f.returns.isErr result = true ∨
    ∃ value, f.returns.value? result = some value ∧ f.unlessHolds (f.scope args) value = true

/-- What happens to the store besides the calls: an entry expires or is overwritten with a text
that does not decode, and others use keys of their own. -/
inductive Disturbs (json : Json T) (f : CachedFn V A R T) :
    Store String String → Store String String → Prop
  | expires (store : Store String String) (key : String) :
      Disturbs json f store (Function.update store key none)
  | garbles (store : Store String String) (key text : String) (h : json.fromStr text = none) :
      Disturbs json f store (Function.update store key (some text))
  | elsewhere (store : Store String String) (key text : String)
      (h : ∀ args, key ≠ f.cacheKey args) :
      Disturbs json f store (Function.update store key (some text))

/-- What is asked of a call, returned or not. -/
structure CallLaws (json : Json T) (f : CachedFn V A R T)
    (c : Thread String String (Scope V T) R R A) : Prop where
  returns : ∀ result, c.rest = .ret result → result = f.plain c.args
  once : c.trace.countP isRan ≤ 1
  bypass : f.asked c.args = false → ¬ Reads c.trace ∧ ¬ Writes c.trace
  unstored : f.Unstorable c.args (f.plain c.args) → ¬ Writes c.trace
  fallback : ∀ key text, .got key (some (some text)) ∈ c.trace → json.fromStr text = none →
    ∀ result, c.rest = .ret result → ∃ scope, .ran scope ∈ c.trace

/-- An entry that decodes is a result to be stored. -/
def Entry (json : Json T) (f : CachedFn V A R T) (key text : String) : Prop :=
  ∀ args, key = f.cacheKey args → ∀ value, json.fromStr text = some value →
    f.returns.ok value = f.plain args ∧ ¬ f.Unstorable args (f.plain args)

/-- In every run from a store without keys of the function. -/
def Transparent (json : Json T) (f : CachedFn V A R T) : Prop :=
  ∀ store moves s, (∀ args, store (f.cacheKey args) = none) →
    Run (Step f.body (f.cache json) (f.Disturbs json)) { store := store, calls := [] } moves s →
    (∀ c ∈ s.calls, f.CallLaws json c) ∧ Good (f.Entry json) s.store

/-- The names that the wrapper declares change nothing, and where a result that is not to be
stored comes as a value, the wrapper finds `unless` true. -/
structure Unshadowed (f : CachedFn V A R T) : Prop where
  condition : ∀ args, f.asked args = false → f.conditionHolds (f.importScope args) = false
  bypassed : ∀ args, f.conditionHolds (f.importScope args) = false →
    f.body (f.importScope args) = f.plain args
  body : ∀ args, f.conditionHolds (f.importScope args) = true →
    f.body (f.missScope args) = f.plain args
  unstored : ∀ args value, f.conditionHolds (f.importScope args) = true →
    f.returns.value? (f.plain args) = some value → f.Unstorable args (f.plain args) →
      f.unlessHolds (f.missScope args) value = true

/-! ## Expressions that read other names -/

/-- The two scopes differ in these names at most. -/
def AgreeOff (names : List (Namespace × String)) (scope scope' : Scope V T) : Prop :=
  ∀ space name, (space, name) ∉ names → scope space name = scope' space name

def Ignores {B : Type} (names : List (Namespace × String)) (expr : Scope V T → B) : Prop :=
  ∀ scope scope', AgreeOff names scope scope' → expr scope = expr scope'

theorem AgreeOff.bind {names : List (Namespace × String)} {scope scope' : Scope V T}
    (h : AgreeOff names scope scope') (space : Namespace) (name : String) (binding : Binding V T) :
    AgreeOff names (scope.bind space name binding) (scope'.bind space name binding) := by
  intro space' name' hname
  unfold Scope.bind
  by_cases heq : space' = space ∧ name' = name
  · rw [if_pos heq, if_pos heq]
  · rw [if_neg heq, if_neg heq, h space' name' hname]

theorem AgreeOff.declare {names : List (Namespace × String)} {scope scope' : Scope V T}
    (h : AgreeOff names scope scope') {space : Namespace} {name : String}
    (hmem : (space, name) ∈ names) (binding : Binding V T) :
    AgreeOff names scope (scope'.bind space name binding) := by
  intro space' name' hname
  unfold Scope.bind
  by_cases heq : space' = space ∧ name' = name
  · obtain ⟨rfl, rfl⟩ := heq
    exact absurd hmem hname
  · rw [if_neg heq, h space' name' hname]

theorem AgreeOff.uses {names : List (Namespace × String)} {scope scope' : Scope V T}
    (h : AgreeOff names scope scope') {imports : List (String × String)}
    (hmem : ∀ i ∈ imports, (.type, i.1) ∈ names) :
    AgreeOff names scope (scope'.uses imports) := by
  unfold Scope.uses
  induction imports generalizing scope' with
  | nil => exact h
  | cons i rest ih =>
      rw [List.foldl_cons]
      exact ih (h.declare (hmem i List.mem_cons_self) _)
        fun j hj => hmem j (List.mem_cons_of_mem _ hj)

/-- What the wrapper declares before the body. -/
def declared (f : CachedFn V A R T) : List (Namespace × String) :=
  (.value, "redis") :: (.value, "cache_key") :: f.imports.map fun i => (.type, i.1)

theorem agreeOff_importScope (f : CachedFn V A R T) (args : A) :
    AgreeOff f.declared (f.scope args) (f.importScope args) := by
  refine AgreeOff.uses (fun _ _ _ => rfl) ?_
  intro i hi
  exact List.mem_cons_of_mem _ (List.mem_cons_of_mem _ (List.mem_map_of_mem hi))

theorem agreeOff_missScope (f : CachedFn V A R T) (args : A) :
    AgreeOff f.declared (f.scope args) (f.missScope args) :=
  ((agreeOff_importScope f args).declare List.mem_cons_self _).declare
    (List.mem_cons_of_mem _ List.mem_cons_self) _

/-- A function whose expressions read none of the names declared, and whose values are not
errors, is unshadowed. -/
theorem unshadowed_of_ignores {f : CachedFn V A R T} (hbody : Ignores f.declared f.body)
    (hcondition : ∀ condition ∈ f.condition, Ignores f.declared condition)
    (hunless : ∀ unlessExpr ∈ f.unlessExpr, Ignores f.declared unlessExpr)
    (herr : ∀ args value, f.returns.value? (f.plain args) = some value →
      f.returns.isErr (f.plain args) = false) : f.Unshadowed := by
  have hasked : ∀ args, f.conditionHolds (f.importScope args) = f.asked args := by
    intro args
    unfold asked conditionHolds
    cases h : f.condition with
    | none => rfl
    | some condition => exact (hcondition condition h _ _ (agreeOff_importScope f args)).symm
  have hunlessHolds : ∀ args value,
      f.unlessHolds (f.missScope args) value = f.unlessHolds (f.scope args) value := by
    intro args value
    unfold unlessHolds
    cases h : f.unlessExpr with
    | none => rfl
    | some unlessExpr =>
        exact (hunless unlessExpr h _ _ ((agreeOff_missScope f args).bind _ _ _)).symm
  refine ⟨fun args h => (hasked args).trans h, fun args _ => ?_, fun args _ => ?_, ?_⟩
  · exact (hbody _ _ (agreeOff_importScope f args)).symm
  · exact (hbody _ _ (agreeOff_missScope f args)).symm
  · intro args value _ hvalue hunstorable
    rw [hunlessHolds]
    rcases hunstorable with hisErr | ⟨value', hvalue', htrue⟩
    · rw [herr args value hvalue] at hisErr
      cases hisErr
    · rw [hvalue] at hvalue'
      cases hvalue'
      exact htrue

/-! ## The wrapper of an unshadowed function -/

/-- What holds of the trace of a call at any time. -/
structure TraceLaws (f : CachedFn V A R T) (args : A)
    (trace : List (Effect String String (Scope V T))) : Prop where
  once : trace.countP isRan ≤ 1
  bypass : f.asked args = false → ¬ Reads trace ∧ ¬ Writes trace
  unstored : f.Unstorable args (f.plain args) → ¬ Writes trace

/-- What holds of a call when it returns. -/
structure Returned (json : Json T) (f : CachedFn V A R T) (args : A)
    (trace : List (Effect String String (Scope V T))) (result : R) : Prop where
  returns : result = f.plain args
  fallback : ∀ key text, .got key (some (some text)) ∈ trace → json.fromStr text = none →
    ∃ scope, .ran scope ∈ trace

section
variable {f : CachedFn V A R T} {json : Json T} {args : A}

theorem traceLaws_nil : f.TraceLaws args [] where
  once := Nat.zero_le 1
  bypass := by simp [Reads, Writes]
  unstored := by simp [Writes]

theorem TraceLaws.ran {trace : List (Effect String String (Scope V T))}
    (h : f.TraceLaws args trace) (hnone : trace.countP isRan = 0) (scope : Scope V T) :
    f.TraceLaws args (trace ++ [.ran scope]) where
  once := by
    rw [List.countP_append, hnone]
    simp [isRan]
  bypass := by simpa [Reads, Writes] using h.bypass
  unstored := by simpa [Writes] using h.unstored

theorem TraceLaws.got {trace : List (Effect String String (Scope V T))}
    (h : f.TraceLaws args trace) (hasked : f.asked args = true) (key : String)
    (reply : Option (Option String)) : f.TraceLaws args (trace ++ [.got key reply]) where
  once := by simpa [List.countP_append, isRan] using h.once
  bypass := fun hnot => by
    rw [hasked] at hnot
    cases hnot
  unstored := by simpa [Writes] using h.unstored

theorem TraceLaws.put {trace : List (Effect String String (Scope V T))}
    (h : f.TraceLaws args trace) (hasked : f.asked args = true)
    (hstorable : ¬ f.Unstorable args (f.plain args)) (key text : String) :
    f.TraceLaws args (trace ++ [.put key text]) where
  once := by simpa [List.countP_append, isRan] using h.once
  bypass := fun hnot => by
    rw [hasked] at hnot
    cases hnot
  unstored := fun hunstorable => absurd hunstorable hstorable

/-- Once the body has run, nothing more is asked of the lookup. -/
theorem returned_of_ran {trace : List (Effect String String (Scope V T))} {scope : Scope V T}
    (h : .ran scope ∈ trace) : f.Returned json args trace (f.plain args) where
  returns := rfl
  fallback := fun _ _ _ _ => ⟨scope, h⟩

theorem asked_of_conditionHolds (h : f.Unshadowed)
    (hcondition : f.conditionHolds (f.importScope args) = true) : f.asked args = true := by
  cases hasked : f.asked args with
  | true => rfl
  | false =>
      rw [h.condition args hasked] at hcondition
      cases hcondition

/-- The result of the body is stored only where it is to be. -/
theorem wp_settle (hjson : json.RoundTrips) (hkeys : Function.Injective f.cacheKey)
    (h : f.Unshadowed) (hcondition : f.conditionHolds (f.importScope args) = true)
    {trace : List (Effect String String (Scope V T))} (htrace : f.TraceLaws args trace)
    {scope : Scope V T} (hran : .ran scope ∈ trace) :
    (f.settle json args (f.plain args)).wp f.body (f.Entry json) (f.TraceLaws args)
      (f.Returned json args) trace := by
  unfold settle
  cases hvalue : f.returns.value? (f.plain args) with
  | none => exact ⟨htrace, returned_of_ran hran⟩
  | some value =>
      have hok := Returns.ok_of_value? hvalue
      simp only [hok]
      cases hunless : f.unlessHolds (f.missScope args) value with
      | true => exact ⟨htrace, returned_of_ran hran⟩
      | false =>
          have hstorable : ¬ f.Unstorable args (f.plain args) := by
            intro hunstorable
            rw [h.unstored args value hcondition hvalue hunstorable] at hunless
            cases hunless
          obtain ⟨text, htext, hdecoded⟩ := hjson value
          rw [htext]
          refine ⟨htrace, ?_, fun done => ⟨?_, returned_of_ran (List.mem_append_left _ hran)⟩⟩
          · intro args' hkey value' hvalue'
            obtain rfl := hkeys hkey
            obtain rfl := Option.some.inj (hdecoded.symm.trans hvalue')
            exact ⟨hok, hstorable⟩
          · exact htrace.put (asked_of_conditionHolds h hcondition) hstorable _ _

theorem wp_cache (hjson : json.RoundTrips) (hkeys : Function.Injective f.cacheKey)
    (h : f.Unshadowed) (args : A) :
    (f.cache json args).wp f.body (f.Entry json) (f.TraceLaws args) (f.Returned json args)
      [] := by
  rw [cache_eq]
  cases hcondition : f.conditionHolds (f.importScope args) with
  | false =>
      have hbody := h.bypassed args hcondition
      refine ⟨traceLaws_nil, traceLaws_nil.ran rfl _, ?_⟩
      rw [hbody]
      exact returned_of_ran List.mem_cons_self
  | true =>
      have hasked := asked_of_conditionHolds h hcondition
      refine ⟨traceLaws_nil, fun reply hreply => ?_⟩
      have hgot := (@traceLaws_nil V A R T f args).got hasked (f.cacheKey args) reply
      unfold answer
      cases hvalue : reply.join.bind json.fromStr with
      | none =>
          refine ⟨hgot, ?_⟩
          rw [h.body args hcondition]
          exact wp_settle hjson hkeys h hcondition (hgot.ran rfl _)
            (List.mem_append_right _ List.mem_cons_self)
      | some value =>
          obtain ⟨text, htext, hdecoded⟩ := Option.bind_eq_some_iff.mp hvalue
          obtain rfl := Option.join_eq_some_iff.mp htext
          refine ⟨hgot, (hreply text rfl args rfl value hdecoded).1, ?_⟩
          intro key text' hmem hundecoded
          obtain ⟨_, heq⟩ := Effect.got.inj (List.mem_singleton.mp hmem)
          cases heq
          rw [hdecoded] at hundecoded
          cases hundecoded

theorem Disturbs.good {store store' : Store String String} (h : f.Disturbs json store store')
    (hstore : Good (f.Entry json) store) : Good (f.Entry json) store' := by
  cases h with
  | expires key => exact hstore.erase key
  | garbles key text hundecoded =>
      refine hstore.update ?_
      intro args _ value hvalue
      rw [hundecoded] at hvalue
      cases hvalue
  | elsewhere key text hkey =>
      refine hstore.update ?_
      intro args heq
      exact absurd heq (hkey args)

theorem transparent_of_unshadowed (hjson : json.RoundTrips)
    (hkeys : Function.Injective f.cacheKey) (h : f.Unshadowed) : f.Transparent json := by
  intro store moves s hstore hrun
  have hgood : Good (f.Entry json) store := by
    intro key text htext args hkey
    rw [hkey, hstore args] at htext
    cases htext
  have hkept := kept_of_run (wp_cache hjson hkeys h) (fun _ _ henv => henv.good) hgood hrun
  refine ⟨fun c hc => ?_, hkept.store⟩
  have hwp := hkept.calls c hc
  have htrace := Prog.wp_inv hwp
  have hreturned : ∀ result, c.rest = .ret result → f.Returned json c.args c.trace result := by
    intro result hrest
    rw [hrest] at hwp
    exact hwp.2
  exact {
    returns := fun result hrest => (hreturned result hrest).returns
    once := htrace.once
    bypass := htrace.bypass
    unstored := htrace.unstored
    fallback := fun key text hmem hundecoded result hrest =>
      (hreturned result hrest).fallback key text hmem hundecoded }

/-! ## A call alone -/

/-- The trace of a call that finds nothing and writes without a failure. -/
theorem acts_settle (hjson : json.RoundTrips) (store : Store String String) (result : R) :
    ∃ acts store', Run (Act f.body) (store, f.settle json args result) acts
      (store', .ret result) ∧
      ∀ value, f.returns.value? result = some value →
        f.unlessHolds (f.missScope args) value = false → Writes acts := by
  unfold settle
  cases hvalue : f.returns.value? result with
  | none => exact ⟨[], store, .nil _, fun value h => by cases h⟩
  | some value =>
      simp only [Returns.ok_of_value? hvalue]
      cases hunless : f.unlessHolds (f.missScope args) value with
      | true =>
          refine ⟨[], store, .nil _, fun value' h hfalse => ?_⟩
          cases h
          rw [hunless] at hfalse
          cases hfalse
      | false =>
          obtain ⟨text, htext, _⟩ := hjson value
          rw [htext]
          exact ⟨_, _, .single (.set store (f.cacheKey args) text f.expire _),
            fun _ _ _ => ⟨_, _, List.mem_cons_self⟩⟩

theorem acts_cache (hjson : json.RoundTrips) (args : A)
    (hcondition : f.conditionHolds (f.importScope args) = true) :
    ∃ acts store', Run (Act f.body) (fun _ => none, f.cache json args) acts
      (store', .ret (f.body (f.missScope args))) ∧ Reads acts ∧
      ∀ value, f.returns.value? (f.body (f.missScope args)) = some value →
        f.unlessHolds (f.missScope args) value = false → Writes acts := by
  obtain ⟨acts, store', hrun, hwrites⟩ :=
    @acts_settle V A R T f json args hjson (fun _ => none) (f.body (f.missScope args))
  have hget : Act f.body (fun _ => none, .get (f.cacheKey args) (f.answer json args))
      (.got (f.cacheKey args) (some none))
      (fun _ => none, .run (f.missScope args) (f.settle json args)) := .get _ _ _
  rw [cache_eq, hcondition]
  refine ⟨.got (f.cacheKey args) (some none) :: .ran (f.missScope args) :: acts, store',
    .cons hget (.cons (.run _ _ _) hrun), ⟨_, _, List.mem_cons_self⟩, ?_⟩
  intro value hvalue hunless
  obtain ⟨key, text, hmem⟩ := hwrites value hvalue hunless
  exact ⟨key, text, List.mem_cons_of_mem _ (List.mem_cons_of_mem _ hmem)⟩

theorem unshadowed_of_transparent (hjson : json.RoundTrips) (h : f.Transparent json) :
    f.Unshadowed := by
  have hlaws : ∀ args acts store' rest,
      Run (Act f.body) (fun _ => none, f.cache json args) acts (store', rest) →
        f.CallLaws json { args := args, trace := acts, rest := rest } := by
    intro args acts store' rest hrun
    exact (h _ _ _ (fun _ => rfl) (run_of_call hrun)).1 _ List.mem_cons_self
  have hbody : ∀ args, f.conditionHolds (f.importScope args) = true →
      f.body (f.missScope args) = f.plain args := by
    intro args hcondition
    obtain ⟨acts, store', hrun, _, _⟩ := acts_cache hjson args hcondition
    exact (hlaws args acts store' _ hrun).returns _ rfl
  refine ⟨?_, ?_, hbody, ?_⟩
  · intro args hasked
    by_contra hnot
    obtain ⟨acts, store', hrun, hreads, _⟩ :=
      acts_cache hjson args (Bool.not_eq_false _ ▸ hnot)
    exact ((hlaws args acts store' _ hrun).bypass hasked).1 hreads
  · intro args hcondition
    have hrun : Run (Act f.body) (fun _ => none, f.cache json args)
        [.ran (f.importScope args)] (fun _ => none, .ret (f.body (f.importScope args))) := by
      rw [cache_eq, hcondition]
      exact .single (.run _ _ _)
    exact (hlaws args _ _ _ hrun).returns _ rfl
  · intro args value hcondition hvalue hunstorable
    by_contra hnot
    obtain ⟨acts, store', hrun, _, hwrites⟩ := acts_cache hjson args hcondition
    rw [hbody args hcondition] at hwrites
    exact (hlaws args acts store' _ hrun).unstored hunstorable
      (hwrites value hvalue (Bool.eq_false_iff.mpr hnot))

end

/-- The wrapper is transparent in every run exactly when the function is unshadowed. -/
theorem transparent_iff (json : Json T) (f : CachedFn V A R T) (hjson : json.RoundTrips)
    (hkeys : Function.Injective f.cacheKey) : f.Transparent json ↔ f.Unshadowed :=
  ⟨unshadowed_of_transparent hjson, transparent_of_unshadowed hjson hkeys⟩

end CachedFn

namespace Sample

def json : Json Bool where
  toStr := fun value => some (if value then "true" else "false")
  fromStr := fun text =>
    if text = "true" then some true else if text = "false" then some false else none

def text : Option (Binding String Bool) → String
  | some (.param value) => value
  | some (.cacheKey key) => key
  | _ => ""

/-- `#[cache("known:{name}")] async fn is_known(name: String) -> bool { name == "admin" }`, with
any identifier for `name`. -/
def isKnown (name : String) : CachedFn String String Bool Bool where
  key := fun scope => "known:" ++ text (scope .value name)
  expire := none
  condition := none
  unlessExpr := none
  output := .path none false [.mk "bool" .none]
  returns := .plain Bool fun _ => false
  returns_eq := rfl
  scope := fun value space name' =>
    if space = .value ∧ name' = name then some (.param value) else none
  body := fun scope => decide (text (scope .value name) = "admin")

theorem json_roundTrips : json.RoundTrips := by
  intro value
  cases value with
  | false => exact ⟨"false", rfl, rfl⟩
  | true => exact ⟨"true", rfl, rfl⟩

theorem isKnown_cacheKey {name : String} (h : name ≠ "redis") (value : String) :
    (isKnown name).cacheKey value = "known:" ++ value := by
  have hname : (isKnown name).clientScope value .value name = some (.param value) := by
    simp [CachedFn.clientScope, CachedFn.importScope, CachedFn.imports, Scope.uses, Scope.bind,
      isKnown, Returns.isResult, CachedFn.plainImports, h]
  show "known:" ++ text ((isKnown name).clientScope value .value name) = "known:" ++ value
  rw [hname]
  rfl

theorem isKnown_cacheKey_injective {name : String} (h : name ≠ "redis") :
    Function.Injective (isKnown name).cacheKey := by
  intro value value' heq
  rw [isKnown_cacheKey h, isKnown_cacheKey h] at heq
  exact (String.append_right_inj "known:").mp heq

/-- `#[cache("known:{name}", expire = 60, condition = name != "guest", unless = result)]
async fn find_known(name: String) -> Result<bool, String>`, which fails without a name; only who is
not known is stored. -/
def findKnown : CachedFn String String (Except String Bool) Bool where
  key := fun scope => "known:" ++ text (scope .value "name")
  expire := some 60
  condition := some fun scope => decide (text (scope .value "name") ≠ "guest")
  unlessExpr := some fun scope =>
    match scope .value "result" with
    | some (.result value) => value
    | _ => false
  output := .path none false [.mk "Result" (.angleBracketed
    [.type (.path none false [.mk "bool" .none]), .type (.path none false [.mk "String" .none])])]
  returns := .result String Bool
  returns_eq := rfl
  scope := fun value space name =>
    if space = .value ∧ name = "name" then some (.param value) else none
  body := fun scope =>
    if text (scope .value "name") = "" then .error "no name"
    else .ok (decide (text (scope .value "name") = "admin"))

theorem findKnown_cacheKey_injective : Function.Injective findKnown.cacheKey := by
  have hkey : ∀ value, findKnown.cacheKey value = "known:" ++ value := by
    intro value
    have hname : findKnown.clientScope value .value "name" = some (.param value) := by
      simp [CachedFn.clientScope, CachedFn.importScope, CachedFn.imports, Scope.uses, Scope.bind,
        findKnown, Returns.isResult, CachedFn.resultImports]
    show "known:" ++ text (findKnown.clientScope value .value "name") = "known:" ++ value
    rw [hname]
    rfl
  intro value value' heq
  rw [hkey, hkey] at heq
  exact (String.append_right_inj "known:").mp heq

/-- The function with a parameter that the macro has a local of the same name for. -/
def shadowed : CachedFn String String Bool Bool := isKnown "cache_key"

end Sample

/-- None of its expressions reads what the wrapper declares. -/
theorem find_known_transparent : Sample.findKnown.Transparent Sample.json := by
  refine (CachedFn.transparent_iff Sample.json Sample.findKnown Sample.json_roundTrips
    Sample.findKnown_cacheKey_injective).mpr (CachedFn.unshadowed_of_ignores ?_ ?_ ?_ ?_)
  · intro scope scope' hagree
    have hname := hagree .value "name" (by decide)
    simp only [Sample.findKnown, hname]
  · intro condition hcondition scope scope' hagree
    cases hcondition
    simp only [hagree .value "name" (by decide)]
  · intro unlessExpr hunless scope scope' hagree
    cases hunless
    simp only [hagree .value "result" (by decide)]
  · intro args value hvalue
    simp only [CachedFn.plain] at hvalue ⊢
    cases hbody : Sample.findKnown.body (Sample.findKnown.scope args) with
    | error e =>
      rw [hbody] at hvalue
      cases hvalue
    | ok value' => rfl

/-- `is_known("admin")` is true, and its wrapper compares `"known:admin"`. -/
theorem cache_key_shadowed :
    Sample.json.RoundTrips ∧ Function.Injective Sample.shadowed.cacheKey ∧
      Sample.shadowed.plain "admin" = true ∧
      (∃ moves s, Run (Step Sample.shadowed.body (Sample.shadowed.cache Sample.json)
          (Sample.shadowed.Disturbs Sample.json)) { store := fun _ => none, calls := [] } moves s ∧
        ∃ c ∈ s.calls, c.args = "admin" ∧ c.rest = .ret false) ∧
      ¬ Sample.shadowed.Transparent Sample.json := by
  have hbody : Sample.shadowed.body (Sample.shadowed.missScope "admin") = false := by
    have hkey : Sample.shadowed.missScope "admin" .value "cache_key" =
        some (.cacheKey "known:admin") := by
      simp [CachedFn.missScope, Scope.bind, Sample.shadowed, Sample.isKnown_cacheKey]
    show decide (Sample.text (Sample.shadowed.missScope "admin" .value "cache_key") = "admin") =
      false
    rw [hkey]
    decide
  have hplain : Sample.shadowed.plain "admin" = true := by decide
  obtain ⟨acts, store', hrun, _, _⟩ :=
    CachedFn.acts_cache (f := Sample.shadowed) Sample.json_roundTrips "admin" rfl
  rw [hbody] at hrun
  refine ⟨Sample.json_roundTrips, Sample.isKnown_cacheKey_injective (by decide), hplain,
    ⟨_, _, run_of_call hrun, _, List.mem_cons_self, rfl, rfl⟩, fun h => ?_⟩
  have hunshadowed := CachedFn.unshadowed_of_transparent Sample.json_roundTrips h
  rw [hunshadowed.body "admin" rfl, hplain] at hbody
  cases hbody

end Summer.Macros.Cache
