/-
Lazy components (`summer/src/plugin/lazy.rs`) and the global application they resolve from
(`App::global`, `summer/src/app.rs`).

A `LazyComponent` is a cell behind a readers-writer lock that its clones share.  `get` looks
under a read guard, looks again under a write guard, and then resolves the component from the
global application while it holds that guard.  Whatever calls run side by side, they behave as
if each took effect at once (`lazy_atomic`), none of them deadlocks (`lazy_calls_return`), and
the first component that a cell resolves stays its component (`get_agrees`).
-/
import Summer.App.Schedule
import Summer.Inject.AutoInject
import Summer.Lib.AtomicCalls

namespace Summer

open RwLock

/-- `try_get_component` of the built application. -/
def App.tryGetComponent {V K : Type} (typeName : TypeId → String) (app : App V K) (ty : TypeId) :
    Except AppError V :=
  match app.components.lookup ty with
  | some component => .ok component
  | none => .error (.componentNotExist (typeName ty))

namespace LazyComponent

variable {C V K : Type}

/-- The locks: of the cell `c`, and of `GLOBAL_APP`. -/
inductive Lock (C : Type)
  | component (c : C)
  | globalApp
deriving DecidableEq, Repr

abbrev Val (C V K : Type) : Lock C → Type
  | .component _ => Option V
  | .globalApp => App V K

inductive Op (C V K : Type)
  | get (c : C)
  | getIfInitialized (c : C)
  | setGlobal (app : App V K)

inductive Reply (V : Type)
  | component (result : Except AppError V)
  | initialized (component : Option V)
  | unit

abbrev Code (C V K : Type) := Prog (Val C V K) (Reply V)

/-- `App::global`: the guard is a temporary that is dropped once the `Arc` is cloned. -/
def globalApp (next : App V K → Code C V K) : Code C V K :=
  .read .globalApp fun app => .drop .globalApp (next app)

/-- The end of `get`, under the write guard of an empty cell. -/
def resolve (typeName : TypeId → String) (ty : C → TypeId) (c : C) (app : App V K) : Code C V K :=
  match app.tryGetComponent typeName (ty c) with
  | .error e => .drop (.component c) (.ret (.component (.error e)))
  | .ok component =>
    .assign (.component c) (some component) <|
      .drop (.component c) (.ret (.component (.ok component)))

/-- The first guard goes at the end of its block, and the second with every return. -/
def get (typeName : TypeId → String) (ty : C → TypeId) (c : C) : Code C V K :=
  .read (.component c) fun guard =>
    .drop (.component c) <|
      match guard with
      | some component => .ret (.component (.ok component))
      | none =>
        .write (.component c) fun guard =>
          match guard with
          | some component => .drop (.component c) (.ret (.component (.ok component)))
          | none => globalApp (resolve typeName ty c)

def getIfInitialized (c : C) : Code C V K :=
  .read (.component c) fun guard => .drop (.component c) (.ret (.initialized guard))

def setGlobal (app : App V K) : Code C V K :=
  .write .globalApp fun _ => .assign .globalApp app (.drop .globalApp (.ret .unit))

def code (typeName : TypeId → String) (ty : C → TypeId) : Op C V K → Code C V K
  | .get c => get typeName ty c
  | .getIfInitialized c => getIfInitialized c
  | .setGlobal app => setGlobal app

variable {typeName : TypeId → String} {ty : C → TypeId}

theorem resolve_within (c : C) (app : App V K) : (resolve typeName ty c app).Within 2 := by
  unfold resolve
  cases App.tryGetComponent typeName app (ty c) with
  | error e => exact ⟨by omega, trivial⟩
  | ok component => exact ⟨by omega, by omega, trivial⟩

theorem code_within (op : Op C V K) : (code typeName ty op).Within 7 := by
  cases op with
  | get c =>
    refine ⟨by omega, fun guard => ⟨by omega, ?_⟩⟩
    cases guard with
    | some component => trivial
    | none =>
      refine ⟨by omega, fun guard => ?_⟩
      cases guard with
      | some component => exact ⟨by omega, trivial⟩
      | none => exact ⟨by omega, fun app => ⟨by omega, resolve_within c app⟩⟩
  | getIfInitialized c => exact ⟨by omega, fun guard => ⟨by omega, trivial⟩⟩
  | setGlobal app => exact ⟨by omega, fun guard => ⟨by omega, by omega, trivial⟩⟩

/-- An operation that installs only what is in `seen`. -/
def Op.Within (seen : App V K → Prop) : Op C V K → Prop
  | .setGlobal app => seen app
  | _ => True

theorem Op.Within.mono {seen seen' : App V K → Prop} {op : Op C V K} (h : op.Within seen)
    (hsub : ∀ app, seen app → seen' app) : op.Within seen' := by
  cases op with
  | setGlobal app => exact hsub app h
  | _ => trivial

/-- The calls of a run install no application that is not in `seen`. -/
theorem calls_within {T : Type} {seen : App V K → Prop}
    {acts acts' : List (Label T (Op C V K) (Reply V))}
    (h : ∀ u app, .call u (.setGlobal app) ∈ acts → seen app)
    (hvisible : visible acts' = visible acts) (u : T) (op : Op C V K)
    (hcall : .call u op ∈ acts') : op.Within seen := by
  cases op with
  | setGlobal app => exact h u app ((mem_iff_of_visible hvisible rfl).mp hcall)
  | _ => trivial

variable [DecidableEq C]

/-- What the calls are for: a cell keeps the first component that resolves. -/
def effect (typeName : TypeId → String) (ty : C → TypeId) :
    Effect (Val C V K) (Op C V K) (Reply V)
  | .get c, value =>
    match value (.component c) with
    | some component => (.component (.ok component), value)
    | none =>
      match App.tryGetComponent typeName (value .globalApp) (ty c) with
      | .ok component =>
        (.component (.ok component), Function.update value (.component c) (some component))
      | .error e => (.component (.error e), value)
  | .getIfInitialized c, value => (.initialized (value (.component c)), value)
  | .setGlobal app, value => (.unit, Function.update value .globalApp app)

/-! ## The calls alone -/

theorem effect_get_some {c : C} {value : (l : Lock C) → Val C V K l} {component : V}
    (h : value (.component c) = some component) :
    effect typeName ty (.get c) value = (.component (.ok component), value) := by
  simp only [effect, h]

theorem effect_get_ok {c : C} {value : (l : Lock C) → Val C V K l} {component : V}
    (h : value (.component c) = none)
    (happ : App.tryGetComponent typeName (value .globalApp) (ty c) = .ok component) :
    effect typeName ty (.get c) value =
      (.component (.ok component), Function.update value (.component c) (some component)) := by
  simp only [effect, h, happ]

theorem effect_get_error {c : C} {value : (l : Lock C) → Val C V K l} {e : AppError}
    (h : value (.component c) = none)
    (happ : App.tryGetComponent typeName (value .globalApp) (ty c) = .error e) :
    effect typeName ty (.get c) value = (.component (.error e), value) := by
  simp only [effect, h, happ]

theorem resolve_effective {c : C} {app : App V K} {known : Partial (Val C V K)}
    {guards : Lock C → Option Guard} (hcell : known (.component c) = some none)
    (happ : known .globalApp = some app) (hguard : guards (.component c) = some .write) :
    (Prog.drop .globalApp (resolve typeName ty c app)).Effective (effect typeName ty) (.get c)
      known guards := by
  cases hlookup : App.tryGetComponent typeName app (ty c) with
  | error e =>
    refine .unchanged (.component (.error e)) ?_ fun value hvalue => ?_
    · rw [resolve, hlookup]
      exact ⟨rfl, rfl, rfl, fun _ => rfl⟩
    · refine effect_get_error (hvalue _ _ hcell) ?_
      rw [hvalue _ _ happ, hlookup]
  | ok component =>
    refine .changed (.component (.ok component)) (.component c) (some component) hguard ?_
      fun value hvalue => ?_
    · rw [resolve, hlookup]
      refine ⟨rfl, Function.update_self .., ?_⟩
      rw [update_dropped rfl]
      exact ⟨rfl, rfl, fun _ => rfl⟩
    · refine effect_get_ok (hvalue _ _ hcell) ?_
      rw [hvalue _ _ happ, hlookup]

/-- `get` takes effect where a guard shows a component, or under the write guard once it has the
global application. -/
theorem get_atomic (c : C) :
    (get (V := V) (K := K) typeName ty c).Atomic (effect typeName ty) (.get c) (fun _ => none)
      fun _ => none := by
  have hne : (Lock.component c : Lock C) ≠ .globalApp := by
    intro h
    cases h
  refine Or.inr fun guard => ?_
  cases guard with
  | some component =>
    refine Or.inl (.unchanged _ ⟨rfl, rfl, fun _ => rfl⟩ fun value hvalue => ?_)
    exact effect_get_some (hvalue _ _ (Function.update_self ..))
  | none =>
    refine Or.inr (Or.inr fun guard => ?_)
    cases guard with
    | some component =>
      refine Or.inl (.unchanged _ ⟨rfl, rfl, fun _ => rfl⟩ fun value hvalue => ?_)
      exact effect_get_some (hvalue _ _ (Function.update_self ..))
    | none =>
      refine Or.inr fun app => Or.inl (resolve_effective ?_ (Function.update_self ..) ?_)
      · rw [Function.update_of_ne hne, Function.update_self]
      · rw [Function.update_of_ne hne, Function.update_self]

theorem getIfInitialized_atomic (c : C) :
    (getIfInitialized (V := V) (K := K) c).Atomic (effect typeName ty) (.getIfInitialized c)
      (fun _ => none) fun _ => none := by
  refine Or.inr fun guard => Or.inl (.unchanged _ ⟨rfl, rfl, fun _ => rfl⟩ fun value hvalue => ?_)
  simp only [effect, hvalue _ _ (Function.update_self ..)]

theorem setGlobal_atomic (app : App V K) :
    (setGlobal (C := C) app).Atomic (effect typeName ty) (.setGlobal app) (fun _ => none)
      fun _ => none := by
  refine Or.inr fun guard => .changed .unit .globalApp app (Function.update_self ..)
    ⟨Function.update_self .., ?_⟩ fun value _ => rfl
  rw [update_dropped rfl]
  exact ⟨rfl, rfl, fun _ => rfl⟩

theorem code_atomic (op : Op C V K) :
    (code typeName ty op).Atomic (effect typeName ty) op (fun _ => none) fun _ => none := by
  cases op with
  | get c => exact get_atomic c
  | getIfInitialized c => exact getIfInitialized_atomic c
  | setGlobal app => exact setGlobal_atomic app

/-! ## Calls side by side -/

variable {T : Type} [DecidableEq T]

/-- The cells are empty, and `GLOBAL_APP` has its default. -/
def initial (app : App V K) : (l : Lock C) → Val C V K l
  | .component _ => none
  | .globalApp => app

namespace Sample

/-- Two services that depend on each other. -/
def userService : Service :=
  .new 1 none [{ fieldName := "better_user", ty := .lazyComponent (.concrete 2) }]

def betterUserService : Service :=
  .new 2 none [{ fieldName := "user_service", ty := .component false (.concrete 1) }]

def injection : Injection ℕ Unit where
  typeName := fun _ => "Component"
  getConfig := fun _ _ => .error (.otherError "no config")
  call := fun func _ => func
  construct := fun ty _ => if ty = .concrete 2 then 20 else 10
  builder := 0
  addService := fun routes _ _ => routes + 1

def builder : AppBuilder ℕ Unit Unit where
  pluginRegistry := .empty
  components := ∅
  config := ()
  schedulers := []
  shutdownHooks := []

/-- The lazy field of the user service. -/
def cellType (_ : Unit) : TypeId := .concrete 2

def empty : App ℕ Unit where
  components := ∅
  config := ()

def app : App ℕ Unit where
  components := (AList.insert (.concrete 1) 10 ∅).insert (.concrete 2) 20
  config := ()

abbrev code : Op Unit ℕ Unit → Code Unit ℕ Unit := LazyComponent.code injection.typeName cellType

end Sample

/-- A cell before the global application. -/
def Lock.rank : Lock C → ℕ
  | .component _ => 0
  | .globalApp => 1

theorem resolve_ordered (c : C) (app : App V K) :
    (resolve typeName ty c app).Ordered Lock.rank
      (Function.update (fun _ => none) (.component c) (some .write)) := by
  unfold resolve
  cases App.tryGetComponent typeName app (ty c) with
  | error e =>
    intro l
    rw [update_dropped rfl]
  | ok component =>
    refine ⟨Function.update_self .., fun l => ?_⟩
    rw [update_dropped rfl]

theorem get_ordered (c : C) :
    (get (V := V) (K := K) typeName ty c).Ordered Lock.rank fun _ => none := by
  refine ⟨fun k hk => absurd rfl hk, fun guard => ?_⟩
  show Prog.Ordered _ (Function.update (Function.update _ _ _) _ none) _
  rw [update_dropped rfl]
  cases guard with
  | some component => exact fun l => rfl
  | none =>
    refine ⟨fun k hk => absurd rfl hk, fun guard => ?_⟩
    cases guard with
    | some component =>
      intro l
      rw [update_dropped rfl]
    | none =>
      refine ⟨fun k hk => ?_, fun app => ?_⟩
      · cases k with
        | component c' => exact Nat.zero_lt_one
        | globalApp => exact absurd rfl hk
      · show Prog.Ordered _ (Function.update (Function.update _ _ _) _ none) _
        rw [update_dropped rfl]
        exact resolve_ordered c app

theorem code_ordered (op : Op C V K) :
    (code typeName ty op).Ordered Lock.rank fun _ => none := by
  cases op with
  | get c => exact get_ordered c
  | getIfInitialized c =>
    refine ⟨fun k hk => absurd rfl hk, fun guard l => ?_⟩
    rw [update_dropped rfl]
  | setGlobal app =>
    refine ⟨fun k hk => absurd rfl hk, fun guard => ⟨Function.update_self .., fun l => ?_⟩⟩
    rw [update_dropped rfl]

/-- However calls interleave, what they are told is what they would be told if each took effect
at one moment between its call and its return. -/
theorem lazy_atomic {value : (l : Lock C) → Val C V K l}
    {acts : List (Label T (Op C V K) (Reply V))} {s : State (Val C V K) T (Op C V K) (Reply V)}
    (h : Run (Step (code typeName ty)) (State.start value) acts s) :
    ∃ acts' x, Run (Object.Step (effect typeName ty)) (Object.start value) acts' x ∧
      visible acts' = visible acts := by
  obtain ⟨acts', x, _, hrun, hvisible, _⟩ := (Simulates.start value).run code_atomic h
  exact ⟨acts', x, hrun, hvisible⟩

namespace Sample

/-- Both threads see an empty cell, and one of them resolves it while the other one waits. -/
def twoGets : List (Label Bool (Op Unit ℕ Unit) (Reply ℕ)) :=
  [.call false (.get ()), .call true (.get ()), .turn false, .turn true, .turn false, .turn true,
   .turn true, .turn true, .turn true, .turn true, .turn true,
   .ret true (.get ()) (.component (.ok 20)),
   .turn false, .turn false, .ret false (.get ()) (.component (.ok 20))]

theorem twoGets_run : ∃ s, Run (Step code) (State.start (initial app)) twoGets s := by
  refine ⟨_, .cons (.call _ rfl) (.cons (.call _ rfl) (.cons (.read rfl ?_) (.cons (.read rfl ?_)
    (.cons (.drop rfl) (.cons (.drop rfl) (.cons (.write rfl ?_) (.cons (.read rfl ?_)
    (.cons (.drop rfl) (.cons (.assign rfl rfl) (.cons (.drop rfl) (.cons (.ret rfl)
    (.cons (.write rfl ?_) (.cons (.drop rfl) (.single (.ret rfl)))))))))))))))⟩
  -- every lock is free when its turn comes
  all_goals
    intro t th h
    cases t <;> cases h <;> decide

end Sample

theorem lazy_atomic_sample : ∃ s acts' x,
    Run (Step Sample.code) (State.start (initial Sample.app)) Sample.twoGets s ∧
      Run (Object.Step (effect Sample.injection.typeName Sample.cellType))
        (Object.start (initial Sample.app)) acts' x ∧ visible acts' = visible Sample.twoGets := by
  obtain ⟨s, hrun⟩ := Sample.twoGets_run
  obtain ⟨acts', x, hrun', hvisible⟩ := lazy_atomic hrun
  exact ⟨s, acts', x, hrun, hrun', hvisible⟩

/-- No call deadlocks: a call makes at most seven steps, some call under way waits for no lock
that is held, and all of them can return. -/
theorem lazy_calls_return {value : (l : Lock C) → Val C V K l}
    {acts : List (Label T (Op C V K) (Reply V))} {s : State (Val C V K) T (Op C V K) (Reply V)}
    (h : Run (Step (code typeName ty)) (State.start value) acts s) :
    (∀ t, acts.countP (·.turns t) ≤ 7 * acts.countP (·.calls t)) ∧
      (∀ t th, s.thread t = some th →
        ∃ u uh, s.thread u = some uh ∧ ∀ l, uh.Waits l → s.Free l) ∧
      ∃ acts' s', Run (Step (code typeName ty)) s acts' s' ∧ (∀ t, s'.thread t = none) ∧
        ∀ a ∈ acts', ∀ t, a.calls t = false := by
  have hrank : ∀ l : Lock C, l.rank ≤ 1 := by
    intro l
    cases l with
    | component c => exact Nat.zero_le 1
    | globalApp => exact le_refl 1
  refine ⟨fun t => ?_, fun t th ht => ?_, can_finish_of_run code_ordered code_within hrank h⟩
  · have hle := turns_le code_within h t (n := 0) fun th hth => nomatch hth
    rwa [Nat.zero_add] at hle
  · have hordered : s.Ordered Lock.rank :=
      h.invariant (fun _ _ _ hstep => hstep.ordered code_ordered) fun _ _ hth => nomatch hth
    exact hordered.exists_unblocked hrank ht

theorem lazy_calls_return_sample : ∃ (s : State (Val Unit ℕ Unit) Bool (Op Unit ℕ Unit) (Reply ℕ))
    (acts' : _) (s' : _), (s.thread false).isSome ∧ (s.thread true).isSome ∧
      Run (Step Sample.code) s acts' s' ∧ ∀ t, s'.thread t = none := by
  have hrun : Run (Step Sample.code) (State.start (initial Sample.app))
      [.call false (.get ()), .call true (.get ())] _ :=
    .cons (.call (Op.get ()) rfl) (.single (.call (Op.get ()) rfl))
  obtain ⟨_, _, acts', s', hrun', hidle, _⟩ := lazy_calls_return hrun
  exact ⟨_, acts', s', rfl, rfl, hrun', hidle⟩

/-! ## The component of a cell -/

theorem effect_setGlobal_component (app : App V K) (c : C)
    (value : (l : Lock C) → Val C V K l) :
    (effect typeName ty (.setGlobal app) value).2 (.component c) = value (.component c) := by
  have hne : (Lock.component c : Lock C) ≠ .globalApp := by
    intro heq
    cases heq
  exact Function.update_of_ne hne app value

theorem effect_setGlobal_globalApp (app : App V K) (value : (l : Lock C) → Val C V K l) :
    (effect typeName ty (.setGlobal app) value).2 .globalApp = app := by
  show Function.update value .globalApp app .globalApp = app
  rw [Function.update_self]

/-- `get` leaves the global application alone. -/
theorem effect_get_globalApp (c : C) (value : (l : Lock C) → Val C V K l) :
    (effect typeName ty (.get c) value).2 .globalApp = value .globalApp := by
  have hne : (Lock.globalApp : Lock C) ≠ .component c := by
    intro heq
    cases heq
  cases hcell : value (.component c) with
  | some component => rw [effect_get_some hcell]
  | none =>
    cases happ : App.tryGetComponent typeName (value .globalApp) (ty c) with
    | error e => rw [effect_get_error hcell happ]
    | ok component =>
      rw [effect_get_ok hcell happ]
      exact Function.update_of_ne hne (some component) value

/-- No call empties a cell or gives it another component. -/
theorem effect_keeps {c : C} {component : V} (op : Op C V K) (value : (l : Lock C) → Val C V K l)
    (h : value (.component c) = some component) :
    (effect typeName ty op value).2 (.component c) = some component := by
  cases op with
  | get c' =>
    cases hcell : value (.component c') with
    | some component' =>
      rw [effect_get_some hcell]
      exact h
    | none =>
      have hne : (Lock.component c : Lock C) ≠ .component c' := by
        intro heq
        cases heq
        rw [hcell] at h
        cases h
      cases happ : App.tryGetComponent typeName (value .globalApp) (ty c') with
      | error e =>
        rw [effect_get_error hcell happ]
        exact h
      | ok component' =>
        rw [effect_get_ok hcell happ]
        exact (Function.update_of_ne hne ..).trans h
  | getIfInitialized c' => exact h
  | setGlobal app =>
    rw [effect_setGlobal_component]
    exact h

theorem effect_get_keeps {c : C} {component : V} (value : (l : Lock C) → Val C V K l)
    (h : (effect typeName ty (.get c) value).1 = .component (.ok component)) :
    (effect typeName ty (.get c) value).2 (.component c) = some component := by
  cases hcell : value (.component c) with
  | some component' =>
    rw [effect_get_some hcell] at h ⊢
    cases h
    exact hcell
  | none =>
    cases happ : App.tryGetComponent typeName (value .globalApp) (ty c) with
    | error e =>
      rw [effect_get_error hcell happ] at h
      cases h
    | ok component' =>
      rw [effect_get_ok hcell happ] at h ⊢
      cases h
      exact Function.update_self ..

theorem tryGetComponent_ok {app : App V K} {t : TypeId} {component : V} :
    app.tryGetComponent typeName t = .ok component ↔
      app.components.lookup t = some component := by
  unfold App.tryGetComponent
  cases app.components.lookup t with
  | none => simp
  | some component' => simp

/-- The components of the cells come from applications of `seen`. -/
structure Sourced (ty : C → TypeId) (seen : App V K → Prop) (value : (l : Lock C) → Val C V K l) :
    Prop where
  globalApp : seen (value .globalApp)
  component : ∀ c component, value (.component c) = some component →
    ∃ app, seen app ∧ app.components.lookup (ty c) = some component

theorem effect_sourced {seen : App V K → Prop} (op : Op C V K)
    (value : (l : Lock C) → Val C V K l) (hop : op.Within seen) (h : Sourced ty seen value) :
    Sourced ty seen (effect typeName ty op value).2 := by
  cases op with
  | get c =>
    refine ⟨?_, fun c' component' hc' => ?_⟩
    · rw [effect_get_globalApp]
      exact h.globalApp
    · cases hcell : value (.component c) with
      | some component =>
        rw [effect_get_some hcell] at hc'
        exact h.component c' component' hc'
      | none =>
        cases happ : App.tryGetComponent typeName (value .globalApp) (ty c) with
        | error e =>
          rw [effect_get_error hcell happ] at hc'
          exact h.component c' component' hc'
        | ok component =>
          rw [effect_get_ok hcell happ] at hc'
          change Function.update value _ _ _ = _ at hc'
          by_cases hcc : c' = c
          · subst hcc
            rw [Function.update_self, Option.some.injEq] at hc'
            subst hc'
            exact ⟨_, h.globalApp, tryGetComponent_ok.mp happ⟩
          · have hne : (Lock.component c' : Lock C) ≠ .component c := fun heq =>
              hcc (Lock.component.inj heq)
            rw [Function.update_of_ne hne] at hc'
            exact h.component c' component' hc'
  | getIfInitialized c => exact h
  | setGlobal app =>
    refine ⟨?_, fun c component hc => ?_⟩
    · rw [effect_setGlobal_globalApp]
      exact hop
    · rw [effect_setGlobal_component] at hc
      exact h.component c component hc

theorem effect_getIfInitialized (c : C) (value : (l : Lock C) → Val C V K l) :
    effect typeName ty (.getIfInitialized c) value = (.initialized (value (.component c)), value) :=
  rfl

/-- Once a `get` of a cell has succeeded, every other that succeeds returns the same component,
that of the initial application or of one installed meanwhile, and no later call sees the cell
empty. -/
theorem get_agrees {app : App V K} {acts : List (Label T (Op C V K) (Reply V))}
    {s : State (Val C V K) T (Op C V K) (Reply V)}
    (h : Run (Step (code typeName ty)) (State.start (initial app)) acts s) {t : T} {c : C}
    {component : V} (hret : .ret t (.get c) (.component (.ok component)) ∈ acts) :
    (∃ app', (app' = app ∨ ∃ u, .call u (.setGlobal app') ∈ acts) ∧
        app'.components.lookup (ty c) = some component) ∧
      (∀ u component', .ret u (.get c) (.component (.ok component')) ∈ acts →
        component' = component) ∧
      ∀ acts' s', Run (Step (code typeName ty)) s acts' s' → ∀ u, s.thread u = none →
        (∀ r, .ret u (.get c) r ∈ acts' → r = .component (.ok component)) ∧
          ∀ r, .ret u (.getIfInitialized c) r ∈ acts' → r = .initialized (some component) := by
  obtain ⟨acts₁, x, owed, hrun, hvisible, hsim⟩ := (Simulates.start (initial app)).run code_atomic h
  have hcalled : (Object.start (initial app) : Object (Val C V K) T (Op C V K) (Reply V)).Calls
      fun _ => True := fun _ _ _ => trivial
  have hcell : ∀ u component', .ret u (.get c) (.component (.ok component')) ∈ acts →
      x.value (.component c) = some component' := by
    intro u component' hu
    exact Object.keep_of_ret (fun _ => True) (· (.component c) = some component')
      (fun op value _ => effect_keeps op value) (effect_get_keeps ·) hrun
      (fun _ _ _ => trivial) hcalled (fun hdone => nomatch hdone)
      ((mem_iff_of_visible hvisible rfl).mpr hu)
  have hx := hcell t component hret
  refine ⟨?_, fun u component' hu => ?_, fun acts' s' h' u hu => ?_⟩
  · have hinstalled : ∀ u app', .call u (.setGlobal app') ∈ acts →
        app' = app ∨ ∃ u, .call u (.setGlobal app') ∈ acts := fun u app' hcall => Or.inr ⟨u, hcall⟩
    have hsourced := Object.keep_of_run _
      (Sourced ty fun app' => app' = app ∨ ∃ u, .call u (.setGlobal app') ∈ acts) effect_sourced
      hrun (calls_within hinstalled hvisible)
      (fun _ _ hcalled => nomatch hcalled) ⟨Or.inl rfl, fun _ _ hempty => nomatch hempty⟩
    exact hsourced.2.component c component hx
  · exact Option.some.inj ((hcell u component' hu).symm.trans hx)
  · obtain ⟨acts₂, x', owed', hrun', hvisible', _⟩ := hsim.run code_atomic h'
    have hpost : ∀ op r, .ret u op r ∈ acts' →
        (op = .get c → r = .component (.ok component)) ∧
          (op = .getIfInitialized c → r = .initialized (some component)) := by
      intro op r hr
      refine Object.post_of_ret (fun _ => True) (· (.component c) = some component)
        (fun op r => (op = .get c → r = .component (.ok component)) ∧
          (op = .getIfInitialized c → r = .initialized (some component)))
        (fun op value _ => effect_keeps op value) (fun op value hkeep => ?_) hrun'
        (fun _ _ _ => trivial) (fun _ _ _ => trivial) hx (fun op r hdone => ?_)
        ((mem_iff_of_visible hvisible' rfl).mpr hr)
      · refine ⟨fun hop => ?_, fun hop => ?_⟩
        · subst hop
          rw [effect_get_some hkeep]
        · subst hop
          rw [effect_getIfInitialized, hkeep]
      · rw [hsim.status_idle hu] at hdone
        cases hdone
    exact ⟨fun r hr => (hpost _ r hr).1 rfl, fun r hr => (hpost _ r hr).2 rfl⟩

theorem get_agrees_sample : ∃ acts s,
    Run (Step Sample.code) (State.start (initial Sample.app)) acts s ∧
      (∃ app', (app' = Sample.app ∨ ∃ u : Unit, .call u (.setGlobal app') ∈ acts) ∧
        app'.components.lookup (.concrete 2) = some 20) ∧
      (∀ u component', .ret u (.get ()) (.component (.ok component')) ∈ acts → component' = 20) ∧
      ∀ acts' s', Run (Step Sample.code) s acts' s' → ∀ u, s.thread u = none →
        (∀ r, .ret u (.get ()) r ∈ acts' → r = .component (.ok 20)) ∧
          ∀ r, .ret u (.getIfInitialized ()) r ∈ acts' → r = .initialized (some 20) := by
  obtain ⟨n, s, hrun, _⟩ := Step.call_alone code_ordered (s := State.start (initial Sample.app))
    (fun _ => rfl) () (.get ())
  refine ⟨_, s, hrun, get_agrees hrun (t := ()) ?_⟩
  refine List.mem_cons_of_mem _ (List.mem_append_right _ (List.mem_singleton.mpr ?_))
  rfl

/-! ## Services that depend on each other -/

theorem effect_globalApp {app : App V K} (op : Op C V K) (value : (l : Lock C) → Val C V K l)
    (hop : op.Within (· = app)) (h : value .globalApp = app) :
    (effect typeName ty op value).2 .globalApp = app := by
  cases op with
  | get c =>
    rw [effect_get_globalApp]
    exact h
  | getIfInitialized c => exact h
  | setGlobal app' =>
    rw [effect_setGlobal_globalApp]
    exact hop

/-- Where everything comes from one application that has the component, `get` returns it. -/
theorem effect_get_sourced {app : App V K} {value : (l : Lock C) → Val C V K l}
    (h : Sourced ty (· = app) value) {c : C} {component : V}
    (hlookup : app.components.lookup (ty c) = some component) :
    (effect typeName ty (.get c) value).1 = .component (.ok component) := by
  cases hcell : value (.component c) with
  | some component' =>
    obtain ⟨app', rfl, hlookup'⟩ := h.component c component' hcell
    rw [effect_get_some hcell, Option.some.inj (hlookup'.symm.trans hlookup)]
  | none =>
    have happ : value .globalApp = app := h.globalApp
    have hfound : App.tryGetComponent typeName (value .globalApp) (ty c) = .ok component := by
      rw [happ]
      exact tryGetComponent_ok.mpr hlookup
    rw [effect_get_ok hcell hfound]

/-- After `set_global` of the application that the injection has built, a lazy field of the type
of any service, one that depends on the field's owner included, resolves to the component that
was injected. -/
theorem injected_resolves {J : Type} {inj : Injection V K} {builder : AppBuilder V K J}
    {registrars : List Service} {out : Injected V K J}
    (hinject : autoInjectService inj builder registrars = .ok out) (hok : out.result = .ok ())
    {before app : App V K} (hbefore : before.components = ∅)
    (hkept : ∀ t v, out.app.components.lookup t = some v → app.components.lookup t = some v)
    {acts acts' : List (Label T (Op C V K) (Reply V))}
    {s s' : State (Val C V K) T (Op C V K) (Reply V)}
    (h : Run (Step (code inj.typeName ty)) (State.start (initial before)) acts s)
    (h' : Run (Step (code inj.typeName ty)) s acts' s')
    (honly : ∀ u app', .call u (.setGlobal app') ∈ acts ++ acts' → app' = app) {w : T}
    (hset : .ret w (.setGlobal app) .unit ∈ acts) {service : Service}
    (hservice : service ∈ registrars) {c : C} (hc : ty c = service.ty) {u : T}
    (hu : s.thread u = none) {r : Reply V} (hret : .ret u (.get c) r ∈ acts') :
    ∃ fields, (service, fields) ∈ out.installed ∧
      r = .component (.ok (inj.construct service.ty fields)) := by
  obtain ⟨hrecorded, _, hall⟩ := injectLoop_recorded hinject fun x hx => absurd hx List.not_mem_nil
  obtain ⟨fields, hfields⟩ := hall hok service hservice
  refine ⟨fields, hfields, ?_⟩
  have hlookup : app.components.lookup (ty c) = some (inj.construct service.ty fields) := by
    rw [hc]
    exact hkept _ _ (hrecorded _ hfields)
  obtain ⟨acts₁, x, owed, hrun, hvisible, hsim⟩ :=
    (Simulates.start (initial before)).run code_atomic h
  obtain ⟨acts₂, x', owed', hrun', hvisible', _⟩ := hsim.run code_atomic h'
  have hcalls := calls_within (fun u app' hcall =>
    honly u app' (List.mem_append_left _ hcall)) hvisible
  have hcalls' := calls_within (fun u app' hcall =>
    honly u app' (List.mem_append_right _ hcall)) hvisible'
  have hidle : ∀ P, (Object.start (initial before) :
      Object (Val C V K) T (Op C V K) (Reply V)).Calls P := fun _ _ _ hcalled => nomatch hcalled
  have hglobal : x.value .globalApp = app :=
    Object.keep_of_ret (Op.Within (· = app)) (· .globalApp = app) effect_globalApp
      (fun value _ => effect_setGlobal_globalApp app value) hrun hcalls (hidle _)
      (fun hdone => nomatch hdone) ((mem_iff_of_visible hvisible rfl).mpr hset)
  -- until then a cell may have asked the application that was there before, in vain
  obtain ⟨hcalled, hsourced⟩ := Object.keep_of_run (Op.Within (· = app))
    (Sourced ty fun app' => app' = before ∨ app' = app)
    (fun op value hop => effect_sourced op value (hop.mono fun _ heq => Or.inr heq))
    hrun hcalls (hidle _) ⟨Or.inl rfl, fun _ _ hempty => nomatch hempty⟩
  have hsourced' : Sourced ty (· = app) x.value := by
    refine ⟨hglobal, fun c' component hcell => ?_⟩
    obtain ⟨app', rfl | rfl, hcomponent⟩ := hsourced.component c' component hcell
    · rw [hbefore] at hcomponent
      cases hcomponent
    · exact ⟨_, rfl, hcomponent⟩
  refine Object.post_of_ret (Op.Within (· = app)) (Sourced ty (· = app))
    (fun op r => op = .get c → r = .component (.ok (inj.construct service.ty fields)))
    effect_sourced (fun op value hvalue hop => ?_) hrun' hcalls' hcalled hsourced'
    (fun op r hdone => ?_) ((mem_iff_of_visible hvisible' rfl).mpr hret) rfl
  · subst hop
    exact effect_get_sourced hvalue hlookup
  · rw [hsim.status_idle hu] at hdone
    cases hdone

theorem injected_resolves_sample : ∃ (out : Injected ℕ Unit Unit) (fields : Fields ℕ)
    (acts acts' : List (Label Unit (Op Unit ℕ Unit) (Reply ℕ)))
    (s s' : State (Val Unit ℕ Unit) Unit (Op Unit ℕ Unit) (Reply ℕ)),
    autoInjectService Sample.injection Sample.builder
        [Sample.userService, Sample.betterUserService] = .ok out ∧
      Run (Step Sample.code) (State.start (initial Sample.empty)) acts s ∧
      Run (Step Sample.code) s acts' s' ∧
      (Sample.betterUserService, fields) ∈ out.installed ∧
      .ret () (.get ()) (.component (.ok 20)) ∈ acts' := by
  have hne : [Sample.userService, Sample.betterUserService] ≠ [] := List.cons_ne_nil _ _
  have hinject : autoInjectService Sample.injection Sample.builder
      [Sample.userService, Sample.betterUserService] = .ok _ :=
    (injectLoop_cons _ _ [] hne).trans (injectLoop_nil ..)
  have hcall : ∀ s : State (Val Unit ℕ Unit) Unit (Op Unit ℕ Unit) (Reply ℕ),
      (∀ u, s.thread u = none) → ∀ op, ∃ n s', Run (Step Sample.code) s
        (.call () op :: (List.replicate n (.turn ()) ++
          [.ret () op ((Sample.code op).eval s.value).1])) s' ∧
        (∀ u, s'.thread u = none) ∧ s'.value = ((Sample.code op).eval s.value).2 :=
    fun s hs op => Step.call_alone code_ordered hs () op
  obtain ⟨n, s, hrun, hidle, hvalue⟩ := hcall (State.start (initial Sample.empty)) (fun _ => rfl)
    (.setGlobal Sample.app)
  obtain ⟨m, s', hrun', _⟩ := hcall s hidle (.get ())
  have hlast : ∀ {n : ℕ} {op : Op Unit ℕ Unit} {r : Reply ℕ},
      (.ret () op r : Label Unit _ _) ∈
        .call () op :: (List.replicate n (.turn ()) ++ [.ret () op r]) :=
    List.mem_cons_of_mem _ (List.mem_append_right _ (List.mem_singleton_self _))
  have honly : ∀ {n m : ℕ} {r r' : Reply ℕ} (u : Unit) (app' : App ℕ Unit),
      .call u (.setGlobal app') ∈
        ((.call () (.setGlobal Sample.app) :: (List.replicate n (.turn ()) ++
            [.ret () (.setGlobal Sample.app) r])) ++
          .call () (.get ()) :: (List.replicate m (.turn ()) ++ [.ret () (.get ()) r']) :
            List (Label Unit (Op Unit ℕ Unit) (Reply ℕ))) → app' = Sample.app := by
    intro n m r r' u app' hmem
    simpa using hmem
  obtain ⟨fields, hfields, hr⟩ := injected_resolves hinject rfl rfl (fun t v h => h) hrun hrun'
    honly hlast (List.mem_cons_of_mem _ List.mem_cons_self) rfl (hidle ()) hlast
  refine ⟨_, fields, _, _, s, s', hinject, hrun, hrun', hfields, ?_⟩
  refine List.mem_cons_of_mem _ (List.mem_append_right _ (List.mem_singleton.mpr ?_))
  rw [hr]
  rfl

end LazyComponent
end Summer
