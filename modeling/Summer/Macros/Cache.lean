/-
The `cache` macro (`summer-macros/src/cache.rs`): a function behind a lookup in Redis.

The generated code is a program on the store, one of two by how the return type is written.
The tokens of the user are put between the statements of the macro, whose names are not
hygienic: `redis`, `cache_key` and `result` are locals of the same scope, and the imports of the
macro are those of the whole body.  What an expression of the user computes is therefore a
function of the names in scope.
-/
import Summer.Lib.SharedStore
import Summer.Macros.Component

namespace Summer.Macros.Cache

open SharedStore

inductive Namespace
  | value
  | type
deriving DecidableEq, Repr

/-- What a name stands for: with values `V` of the parameters and a result `T`. -/
inductive Binding (V T : Type)
  | param (value : V)
  | item (path : String)
  | client
  | cacheKey (key : String)
  | result (value : T)

abbrev Scope (V T : Type) : Type := Namespace → String → Option (Binding V T)

/-- A declaration shadows those before it. -/
def Scope.bind {V T : Type} (scope : Scope V T) (space : Namespace) (name : String)
    (binding : Binding V T) : Scope V T := fun space' name' =>
  if space' = space ∧ name' = name then some binding else scope space' name'

def Scope.uses {V T : Type} (scope : Scope V T) (imports : List (String × String)) : Scope V T :=
  imports.foldl (fun scope i => scope.bind .type i.1 (.item i.2)) scope

/-- `extract_ok_type_from_result`. -/
def extractOkTypeFromResult (ty : Ty) : Option Ty :=
  match ty.lastSegment with
  | some (.mk ident arguments) =>
    if ident = "Result" then
      match arguments with
      | .angleBracketed (.type okTy :: _) => some okTy
      | _ => none
    else
      none
  | none => none

/-- What a return type stands for, with the type that is stored.  A type that is not written
as a `Result` may be one, under another name; `isErr` says which of its values are errors. -/
inductive Returns : Type → Type → Type 1
  | result (E T : Type) : Returns (Except E T) T
  | plain (R : Type) (isErr : R → Bool) : Returns R R

namespace Returns

variable {R T : Type}

def isResult : Returns R T → Bool
  | .result _ _ => true
  | .plain _ _ => false

def isErr : Returns R T → R → Bool
  | .result _ _, .error _ => true
  | .result _ _, .ok _ => false
  | .plain _ isErr, value => isErr value

def ok : Returns R T → T → R
  | .result _ _, value => .ok value
  | .plain _ _, value => value

/-- What goes by the name `result`, where the call gets that far. -/
def value? : Returns R T → R → Option T
  | .result _ _, .error _ => none
  | .result _ _, .ok value => some value
  | .plain _ _, value => some value

end Returns

/-- The arguments of the macro, and the function. -/
structure CachedFn (V A R T : Type) where
  key : Scope V T → String
  expire : Option Nat
  condition : Option (Scope V T → Bool)
  unlessExpr : Option (Scope V T → Bool)
  output : Ty
  returns : Returns R T
  returns_eq : returns.isResult = (extractOkTypeFromResult output).isSome
  /-- The names in scope in the body, as the function is written. -/
  scope : A → Scope V T
  body : Scope V T → R

/-- `serde_json::to_string` and `serde_json::from_str`. -/
structure Json (T : Type) where
  toStr : T → Option String
  fromStr : String → Option T

/-- Programs on the store that run the body of a function. -/
abbrev Code (V R T : Type) : Type := Prog String String (Scope V T) R R

namespace CachedFn

variable {V A R T E : Type}

/-- The condition where there is one, and otherwise no check. -/
def conditionHolds (f : CachedFn V A R T) (scope : Scope V T) : Bool :=
  match f.condition with
  | some condition => condition scope
  | none => true

def unlessHolds (f : CachedFn V A R T) (scope : Scope V T) (result : T) : Bool :=
  match f.unlessExpr with
  | some unlessExpr => unlessExpr (scope.bind .value "result" (.result result))
  | none => false

/-- `redis_set_stmt`: `set_ex` with a number of seconds, or `set`.  Its error is logged. -/
def redisSetStmt (f : CachedFn V A R T) (cacheKey cacheValue : String) (next : Code V R T) :
    Code V R T :=
  .set cacheKey cacheValue f.expire fun _ => next

def resultImports : List (String × String) :=
  [("redis", "summer_redis::redis"), ("AsyncCommands", "summer_redis::redis::AsyncCommands"),
    ("ComponentRegistry", "summer::plugin::ComponentRegistry"), ("tracing", "summer::tracing"),
    ("App", "summer::App")]

def plainImports : List (String × String) :=
  [("redis", "summer_redis::redis"), ("AsyncCommands", "summer_redis::redis::AsyncCommands"),
    ("ComponentRegistry", "summer::plugin::ComponentRegistry"), ("App", "summer::App")]

/-- The code for a return type `Result<T, E>`. -/
def cacheResult (json : Json T) (f : CachedFn V A (Except E T) T) (args : A) :
    Code V (Except E T) T :=
  let scope := (f.scope args).uses resultImports
  if !f.conditionHolds scope then
    .run scope .ret
  else
    let scope := scope.bind .value "redis" .client
    let cacheKey := f.key scope
    let scope := scope.bind .value "cache_key" (.cacheKey cacheKey)
    let miss : Code V (Except E T) T :=
      .run scope fun result =>
        match result with
        | .error e => .ret (.error e)
        | .ok result =>
          if f.unlessHolds scope result then
            .ret (.ok result)
          else
            match json.toStr result with
            | some cacheValue => f.redisSetStmt cacheKey cacheValue (.ret (.ok result))
            | none => .ret (.ok result)
    .get cacheKey fun reply =>
      match reply with
      | some (some cacheValue) =>
        match json.fromStr cacheValue with
        | some value => .ret (.ok value)
        | none => miss
      | _ => miss

/-- The code for any other return type. -/
def cachePlain (json : Json R) (f : CachedFn V A R R) (args : A) : Code V R R :=
  let scope := (f.scope args).uses plainImports
  if !f.conditionHolds scope then
    .run scope .ret
  else
    let scope := scope.bind .value "redis" .client
    let cacheKey := f.key scope
    let scope := scope.bind .value "cache_key" (.cacheKey cacheKey)
    let miss : Code V R R :=
      .run scope fun result =>
        if f.unlessHolds scope result then
          .ret result
        else
          match json.toStr result with
          | some cacheValue => f.redisSetStmt cacheKey cacheValue (.ret result)
          | none => .ret result
    .get cacheKey fun reply =>
      match reply with
      | some (some cacheValue) =>
        match json.fromStr cacheValue with
        | some value => .ret value
        | none => miss
      | _ => miss

def codeFor : {R T : Type} → Returns R T → Json T → CachedFn V A R T → A → Code V R T
  | _, _, .result _ _ => cacheResult
  | _, _, .plain _ _ => cachePlain

/-- The wrapped function. -/
def cache (json : Json T) (f : CachedFn V A R T) (args : A) : Code V R T :=
  codeFor f.returns json f args

/-! ## One shape of the code -/

def imports (f : CachedFn V A R T) : List (String × String) :=
  if f.returns.isResult then resultImports else plainImports

/-- The names in scope from the first statement of the wrapper. -/
def importScope (f : CachedFn V A R T) (args : A) : Scope V T := (f.scope args).uses f.imports

def clientScope (f : CachedFn V A R T) (args : A) : Scope V T :=
  (f.importScope args).bind .value "redis" .client

def cacheKey (f : CachedFn V A R T) (args : A) : String := f.key (f.clientScope args)

/-- The names in scope where the body runs after a lookup. -/
def missScope (f : CachedFn V A R T) (args : A) : Scope V T :=
  (f.clientScope args).bind .value "cache_key" (.cacheKey (f.cacheKey args))

/-- After the body. -/
def settle (json : Json T) (f : CachedFn V A R T) (args : A) (result : R) : Code V R T :=
  match f.returns.value? result with
  | none => .ret result
  | some value =>
    if f.unlessHolds (f.missScope args) value then
      .ret (f.returns.ok value)
    else
      match json.toStr value with
      | some cacheValue =>
        f.redisSetStmt (f.cacheKey args) cacheValue (.ret (f.returns.ok value))
      | none => .ret (f.returns.ok value)

/-- After the lookup. -/
def answer (json : Json T) (f : CachedFn V A R T) (args : A) (reply : Option (Option String)) :
    Code V R T :=
  match reply.join.bind json.fromStr with
  | some value => .ret (f.returns.ok value)
  | none => .run (f.missScope args) (f.settle json args)

theorem answer_eq {json : Json T} {f : CachedFn V A R T} {args : A}
    {next : Option (Option String) → Code V R T} {miss : Code V R T}
    (hmiss : .run (f.missScope args) (f.settle json args) = miss)
    (hfails : next none = miss) (hempty : next (some none) = miss)
    (hundecoded : ∀ text, json.fromStr text = none → next (some (some text)) = miss)
    (hdecoded : ∀ text value, json.fromStr text = some value →
      next (some (some text)) = .ret (f.returns.ok value)) :
    next = f.answer json args := by
  subst hmiss
  funext reply
  rcases reply with _ | _ | text
  · exact hfails
  · exact hempty
  · show next (some (some text)) = match json.fromStr text with
      | some value => .ret (f.returns.ok value)
      | none => .run (f.missScope args) (f.settle json args)
    cases hvalue : json.fromStr text with
    | none => exact hundecoded text hvalue
    | some value => exact hdecoded text value hvalue

theorem cacheResult_eq (json : Json T) (f : CachedFn V A (Except E T) T)
    (hreturns : f.returns = .result E T) (args : A) :
    cacheResult json f args =
      if f.conditionHolds (f.importScope args) then
        .get (f.cacheKey args) (f.answer json args)
      else
        .run (f.importScope args) .ret := by
  have hscope : (f.scope args).uses resultImports = f.importScope args := by
    unfold importScope imports
    rw [hreturns]
    rfl
  have hok : f.returns.ok = .ok := by rw [hreturns]; rfl
  have hsettle : f.settle json args = fun result =>
      match result with
      | .error e => .ret (.error e)
      | .ok result =>
        if f.unlessHolds (f.missScope args) result then
          .ret (.ok result)
        else
          match json.toStr result with
          | some cacheValue => f.redisSetStmt (f.cacheKey args) cacheValue (.ret (.ok result))
          | none => .ret (.ok result) := by
    funext result
    unfold settle
    rw [hreturns]
    cases result with
    | error e => rfl
    | ok value => rfl
  unfold cacheResult
  simp only [hscope]
  cases hcondition : f.conditionHolds (f.importScope args) with
  | false => rfl
  | true =>
      refine congrArg (Prog.get (f.cacheKey args)) (answer_eq (congrArg _ hsettle) rfl rfl ?_ ?_)
      · intro text htext
        simp only [htext]
        rfl
      · intro text value htext
        simp only [htext, hok]

theorem cachePlain_eq (json : Json R) (f : CachedFn V A R R) {isErr : R → Bool}
    (hreturns : f.returns = .plain R isErr) (args : A) :
    cachePlain json f args =
      if f.conditionHolds (f.importScope args) then
        .get (f.cacheKey args) (f.answer json args)
      else
        .run (f.importScope args) .ret := by
  have hscope : (f.scope args).uses plainImports = f.importScope args := by
    unfold importScope imports
    rw [hreturns]
    rfl
  have hok : ∀ value, f.returns.ok value = value := by
    intro value
    rw [hreturns]
    rfl
  have hsettle : f.settle json args = fun result =>
      if f.unlessHolds (f.missScope args) result then
        .ret result
      else
        match json.toStr result with
        | some cacheValue => f.redisSetStmt (f.cacheKey args) cacheValue (.ret result)
        | none => .ret result := by
    funext result
    unfold settle
    rw [hreturns]
    rfl
  unfold cachePlain
  simp only [hscope]
  cases hcondition : f.conditionHolds (f.importScope args) with
  | false => rfl
  | true =>
      refine congrArg (Prog.get (f.cacheKey args)) (answer_eq (congrArg _ hsettle) rfl rfl ?_ ?_)
      · intro text htext
        simp only [htext]
        rfl
      · intro text value htext
        simp only [htext, hok]

/-- Both codes look up, fall back to the body, and settle its result. -/
theorem cache_eq (json : Json T) (f : CachedFn V A R T) (args : A) :
    f.cache json args =
      if f.conditionHolds (f.importScope args) then
        .get (f.cacheKey args) (f.answer json args)
      else
        .run (f.importScope args) .ret := by
  obtain ⟨key, expire, condition, unlessExpr, output, returns, returns_eq, scope, body⟩ := f
  cases returns with
  | result E T => exact cacheResult_eq json _ rfl args
  | plain R isErr => exact cachePlain_eq json _ rfl args

end CachedFn

end Summer.Macros.Cache
