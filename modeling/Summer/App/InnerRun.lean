/-
`AppBuilder::run` (`summer/src/app.rs`) as a whole: plugins, services, tasks and hooks.

The shutdown hooks are a stack that every part of the start-up pushes on, and the builds push in
the order of the dependencies between plugins.  So when a hook is called, every plugin whose hook
was called before it has been done with: none of them is one that the plugin of this hook depends
on, directly or through others (`shutdown_respects_dependencies`).
-/
import Summer.App.BuildPlugins
import Summer.App.Schedule
import Summer.Inject.AutoInject
import Summer.Lib.Batches

namespace Summer

variable {V C T : Type}

/-- What an application is made of: its callbacks, its services, the listeners of
`ServicesInjectedEvent`, and what its tasks and hooks do. -/
structure AppCode (V C T : Type) where
  prog : Program V C T
  order : HashOrder
  inj : Injection V C
  registrars : List Service
  onServicesInjected : AppBuilder V C T → Except Abort (AppBuilder V C T)
  closures : Closures V C T

namespace AppBuilder

/-- What `run` and `build` have in common. -/
def prepare (code : AppCode V C T) (app : AppBuilder V C T) :
    Except Abort (AppBuilder V C T) := do
  let app ← buildPlugins code.prog code.order app
  let injected ← orPanic (autoInjectService code.inj app code.registrars)
  match injected.result with
  | .error e => .error (.err e)
  | .ok () => code.onServicesInjected injected.app

def innerRun (code : AppCode V C T) (app : AppBuilder V C T) : Except Abort (Stage T) := do
  let app ← prepare code app
  return app.schedule code.closures

/-- `AppBuilder::build`: no tasks and no hooks, the caller gets the application. -/
def buildOnly (code : AppCode V C T) (app : AppBuilder V C T) : Except Abort (App V C) := do
  let app ← prepare code app
  match code.closures.onAppBuilt app.buildApp with
  | .ok () => return app.buildApp
  | .error e => .error (.err e)

/-- What `build` returns is the application that `run` would give to tasks and hooks. -/
theorem buildOnly_ok {code : AppCode V C T} {app : AppBuilder V C T} {built : App V C}
    (h : buildOnly code app = .ok built) :
    ∃ builder, prepare code app = .ok builder ∧ built = builder.buildApp ∧
      code.closures.onAppBuilt builder.buildApp = .ok () := by
  rw [buildOnly] at h
  obtain ⟨builder, hbuilder, h⟩ := bind_ok.mp h
  refine ⟨builder, hbuilder, ?_⟩
  cases hlistened : code.closures.onAppBuilt builder.buildApp with
  | ok u =>
    rw [hlistened] at h
    cases h
    exact ⟨rfl, rfl⟩
  | error e =>
    rw [hlistened] at h
    cases h

/-- The builder that the loop of `build_plugins` starts with. -/
def collect (prog : Program V C T) (app : AppBuilder V C T) :
    Except Abort (AppBuilder V C T) := do
  let app ← orPanic (app.addAutoPlugins prog)
  let app ← prog.onConfigEvent app
  orPanic (prog.logPlugin app)

theorem buildPlugins_ok {prog : Program V C T} {order : HashOrder} {app app' : AppBuilder V C T}
    (h : buildPlugins prog order app = .ok app') :
    ∃ entry built, collect prog app = .ok entry ∧ buildRegistered prog order entry = .ok built ∧
      prog.onPluginsBuilt built = .ok app' := by
  rw [buildPlugins] at h
  obtain ⟨added, hadded, h⟩ := bind_ok.mp h
  obtain ⟨configured, hconfigured, h⟩ := bind_ok.mp h
  obtain ⟨entry, hentry, h⟩ := bind_ok.mp h
  obtain ⟨built, hbuilt, h⟩ := bind_ok.mp h
  refine ⟨entry, built, ?_, orPanic_ok.mp hbuilt, h⟩
  exact bind_ok.mpr ⟨added, hadded, bind_ok.mpr ⟨configured, hconfigured, hentry⟩⟩

/-! ## Whose hook it is -/

/-- The part of the start-up that a hook was added by; `setup` is what comes before `run`. -/
inductive Origin
  | setup
  | inventory
  | configEvent
  | logPlugin
  | plugin (name : String)
  | pluginsBuilt
  | servicesInjected
deriving DecidableEq, Repr

def Origin.rank : Origin → ℕ
  | .setup => 0
  | .inventory => 1
  | .configEvent => 2
  | .logPlugin => 3
  | .plugin _ => 4
  | .pluginsBuilt => 5
  | .servicesInjected => 6

/-- What is of origin `o` may be there before what is of origin `o'`: it does not come later in
the start-up, and it is not that of a plugin that depends on the other. -/
def Origin.MayPrecede (plugins : List Plugin) (o o' : Origin) : Prop :=
  o.rank ≤ o'.rank ∧ ∀ name name', o = .plugin name → o' = .plugin name' →
    ¬ Relation.TransGen (DependsOn plugins) name name'

/-- What the callback does to the hooks is to add some, all of this origin. -/
def AddsHooks (origin : T → Origin) (o : Origin) (app app' : AppBuilder V C T) : Prop :=
  Adds origin o app.shutdownHooks app'.shutdownHooks

/-- Every callback adds its own hooks and takes none away. -/
structure HooksFrom (code : AppCode V C T) (origin : T → Origin) : Prop where
  immediatelyBuild : ∀ p app app', code.prog.immediatelyBuild p app = .ok app' →
    AddsHooks origin .inventory app app'
  onConfigEvent : ∀ app app', code.prog.onConfigEvent app = .ok app' →
    AddsHooks origin .configEvent app app'
  logPlugin : ∀ app app', code.prog.logPlugin app = .ok app' → AddsHooks origin .logPlugin app app'
  build : ∀ p app app', code.prog.build p app = .ok app' →
    AddsHooks origin (.plugin p.name) app app'
  onPluginsBuilt : ∀ app app', code.prog.onPluginsBuilt app = .ok app' →
    AddsHooks origin .pluginsBuilt app app'
  onServicesInjected : ∀ app app', code.onServicesInjected app = .ok app' →
    AddsHooks origin .servicesInjected app app'

/-! ## The start-up -/

section
variable {code : AppCode V C T} {origin : T → Origin} {app app' : AppBuilder V C T}

theorem register_hooks {r : PluginRef} (h : app.register r = .ok app') :
    app'.shutdownHooks = app.shutdownHooks := by
  unfold register at h
  split_ifs at h
  cases h
  rfl

theorem addAutoPlugin_adds (horigin : HooksFrom code origin) {p : Plugin}
    (h : addAutoPlugin code.prog app p = .ok app') : AddsHooks origin .inventory app app' := by
  unfold addAutoPlugin at h
  split_ifs at h
  · exact horigin.immediatelyBuild p app app' h
  · unfold AddsHooks
    rw [register_hooks h]
    exact .refl _ _

theorem addAutoPlugins_adds (horigin : HooksFrom code origin) {l : List Plugin}
    (h : l.foldlM (addAutoPlugin code.prog) app = .ok app') :
    AddsHooks origin .inventory app app' := by
  induction l generalizing app with
  | nil =>
    cases h
    exact .refl _ _
  | cons p rest ih =>
    rw [List.foldlM_cons, bind_ok] at h
    obtain ⟨mid, hone, hrest⟩ := h
    exact (addAutoPlugin_adds horigin hone).trans (ih hrest)

theorem collect_batches (horigin : HooksFrom code origin)
    (hsetup : ∀ hook ∈ app.shutdownHooks, origin hook = .setup)
    (h : collect code.prog app = .ok app') :
    Batches origin [.setup, .inventory, .configEvent, .logPlugin] app'.shutdownHooks := by
  rw [collect] at h
  obtain ⟨added, hadded, h⟩ := bind_ok.mp h
  obtain ⟨configured, hconfigured, hlog⟩ := bind_ok.mp h
  have hbefore : Batches origin [.setup] app.shutdownHooks := .single hsetup
  have hauto := hbefore.snoc (addAutoPlugins_adds horigin (orPanic_ok.mp hadded))
  have hconfig := hauto.snoc (horigin.onConfigEvent _ _ hconfigured)
  exact hconfig.snoc (horigin.logPlugin _ _ (orPanic_ok.mp hlog))

theorem buildAll_batches (horigin : HooksFrom code origin) {built : List PluginRef}
    {os : List Origin} (hos : Batches origin os app.shutdownHooks)
    (h : buildAll code.prog app built = .ok app') :
    Batches origin (os ++ built.map fun r => .plugin r.name) app'.shutdownHooks := by
  induction built generalizing app os with
  | nil =>
    cases h
    rw [List.map_nil, List.append_nil]
    exact hos
  | cons r rest ih =>
    rw [buildAll, List.foldlM_cons, bind_ok] at h
    obtain ⟨mid, hone, hrest⟩ := h
    have hmore := ih (hos.snoc (horigin.build r.plugin app mid hone)) hrest
    rw [List.append_assoc] at hmore
    exact hmore

theorem installService_hooks (inj : Injection V C) (app : AppBuilder V C T) (s : Service) :
    (s.installService inj app).app.shutdownHooks = app.shutdownHooks := by
  cases hbuild : (s.build inj app).2 with
  | error e => rw [Service.installService_build_error hbuild]
  | ok fields =>
    by_cases htaken : app.hasComponent s.ty
    · rw [Service.installService_panic hbuild htaken]
    · rw [Service.installService_ok hbuild htaken, Service.shutdownHooks_register]

theorem autoInjectService_hooks {inj : Injection V C} {registrars : List Service}
    {out : Injected V C T} (h : autoInjectService inj app registrars = .ok out) :
    out.app.shutdownHooks = app.shutdownHooks :=
  injectLoop_keeps (I := fun a => a.shutdownHooks = app.shutdownHooks)
    (fun a s ha => (installService_hooks inj a s).trans ha) h rfl

/-! ## The order of the builds -/

/-- A chain of dependencies that starts in what has been built stays there. -/
theorem DependenciesFirst.closed {built : List PluginRef} {plugins : List Plugin}
    (hfirst : DependenciesFirst built) (hnodup : (built.map PluginRef.name).Nodup)
    (hbuilt : ∀ p, p ∈ plugins ↔ ∃ r ∈ built, r.plugin = p)
    {pre post : List PluginRef} (hsplit : built = pre ++ post) {name dep : String}
    (h : Relation.TransGen (DependsOn plugins) name dep) (hname : name ∈ pre.map PluginRef.name) :
    dep ∈ pre.map PluginRef.name := by
  -- a dependency of a plugin in `pre` is in `pre`, and so along the chain
  have hstep : ∀ a b, DependsOn plugins a b → a ∈ pre.map PluginRef.name →
      b ∈ pre.map PluginRef.name := by
    rintro a b ⟨p, hp, rfl, hdep⟩ ha
    obtain ⟨r, hr, hra⟩ := List.mem_map.mp ha
    obtain ⟨q, hq, rfl⟩ := (hbuilt p).mp hp
    have hrbuilt : r ∈ built := by
      rw [hsplit]
      exact List.mem_append_left _ hr
    obtain rfl : r = q := List.inj_on_of_nodup_map hnodup hrbuilt hq hra
    obtain ⟨before, after, rfl⟩ := List.append_of_mem hr
    obtain ⟨q, hq, hqname⟩ := hfirst before r (after ++ post) (by rw [hsplit]; simp) b hdep
    rw [← hqname]
    exact List.mem_map_of_mem (List.mem_append_left _ hq)
  induction h with
  | single h => exact hstep _ _ h hname
  | tail _ h ih => exact hstep _ _ h ih

/-- Whose hooks may be there when those of the last one are added. -/
theorem DependenciesFirst.mayPrecede {built : List PluginRef} {plugins : List Plugin}
    (hfirst : DependenciesFirst built) (hnodup : (built.map PluginRef.name).Nodup)
    (hbuilt : ∀ p, p ∈ plugins ↔ ∃ r ∈ built, r.plugin = p)
    {pre : List PluginRef} {q : PluginRef} {post : List PluginRef}
    (hsplit : built = pre ++ q :: post) {r : PluginRef} (hr : r ∈ pre ++ [q]) :
    Origin.MayPrecede plugins (.plugin r.name) (.plugin q.name) := by
  refine ⟨Nat.le_refl _, ?_⟩
  intro name name' hname hname' hchain
  cases hname
  cases hname'
  have hfresh : q.name ∉ pre.map PluginRef.name := by
    rw [hsplit, List.map_append, List.map_cons] at hnodup
    intro hmem
    exact (List.nodup_append.mp hnodup).2.2 q.name hmem q.name List.mem_cons_self rfl
  rcases List.mem_append.mp hr with hr | hr
  · exact hfresh (hfirst.closed hnodup hbuilt hsplit hchain (List.mem_map_of_mem hr))
  · -- the plugin itself: its first dependency is in `pre`, and so all that follows
    obtain rfl := List.mem_singleton.mp hr
    rcases Relation.TransGen.head'_iff.mp hchain with ⟨dep, ⟨p, hp, hpname, hdep⟩, hrest⟩
    obtain ⟨r', hr', rfl⟩ := (hbuilt p).mp hp
    have hrmem : r ∈ built := by
      rw [hsplit]
      exact List.mem_append_right _ List.mem_cons_self
    obtain rfl : r' = r := List.inj_on_of_nodup_map hnodup hr' hrmem hpname
    obtain ⟨s, hs, hsname⟩ := hfirst pre r' post hsplit dep hdep
    have hdepname : dep ∈ pre.map PluginRef.name := hsname ▸ List.mem_map_of_mem hs
    rcases Relation.reflTransGen_iff_eq_or_transGen.mp hrest with heq | hrest
    · exact hfresh (heq ▸ hdepname)
    · exact hfresh (hfirst.closed hnodup hbuilt hsplit hrest hdepname)

/-- The origins of hooks before the loop, and those after it. -/
def earlyOrigins : List Origin := [.setup, .inventory, .configEvent, .logPlugin]

def lateOrigins : List Origin := [.pluginsBuilt, .servicesInjected]

/-- The start-up, as the origins of the hooks it adds. -/
def origins (built : List PluginRef) : List Origin :=
  earlyOrigins ++ built.map (fun r => .plugin r.name) ++ lateOrigins

theorem mayPrecede_of_lt {plugins : List Plugin} {o o' : Origin} (h : o.rank < o'.rank) :
    Origin.MayPrecede plugins o o' := by
  refine ⟨Nat.le_of_lt h, ?_⟩
  rintro name name' rfl rfl
  exact absurd h (Nat.lt_irrefl _)

theorem origins_refl {built : List PluginRef} {plugins : List Plugin}
    (hfirst : DependenciesFirst built) (hnodup : (built.map PluginRef.name).Nodup)
    (hbuilt : ∀ p, p ∈ plugins ↔ ∃ r ∈ built, r.plugin = p) :
    ∀ o ∈ origins built, Origin.MayPrecede plugins o o := by
  intro o ho
  have hother : (∀ name, o ≠ .plugin name) → Origin.MayPrecede plugins o o := fun hne =>
    ⟨Nat.le_refl _, fun name _ hname => absurd hname (hne name)⟩
  cases o with
  | plugin name =>
    have hname : ∃ r ∈ built, r.name = name := by
      simpa [origins, earlyOrigins, lateOrigins] using ho
    obtain ⟨r, hr, rfl⟩ := hname
    obtain ⟨pre, post, hsplit⟩ := List.append_of_mem hr
    exact hfirst.mayPrecede hnodup hbuilt hsplit
      (List.mem_append_right _ (List.mem_singleton_self r))
  | _ => exact hother fun name hname => by cases hname

theorem origins_pairwise {built : List PluginRef} {plugins : List Plugin}
    (hfirst : DependenciesFirst built) (hnodup : (built.map PluginRef.name).Nodup)
    (hbuilt : ∀ p, p ∈ plugins ↔ ∃ r ∈ built, r.plugin = p) :
    (origins built).Pairwise (Origin.MayPrecede plugins) := by
  have hplugins : (built.map fun r => Origin.plugin r.name).Pairwise
      (Origin.MayPrecede plugins) := by
    rw [List.pairwise_map, List.pairwise_iff_getElem]
    intro i j hi hj hij
    have hsplit : built = built.take j ++ built[j] :: built.drop (j + 1) := by
      rw [List.getElem_cons_drop, List.take_append_drop]
    apply hfirst.mayPrecede hnodup hbuilt hsplit
    exact List.mem_append_left _ (List.mem_take_iff_getElem.mpr ⟨i, by omega, rfl⟩)
  have hranked : ∀ l : List Origin, (l.Pairwise fun o o' => o.rank < o'.rank) →
      l.Pairwise (Origin.MayPrecede plugins) := fun l hl => hl.imp mayPrecede_of_lt
  have hearly : ∀ o ∈ earlyOrigins, o.rank < 4 := by decide
  have hlate : ∀ o ∈ lateOrigins, 4 < o.rank := by decide
  unfold origins
  rw [List.pairwise_append, List.pairwise_append]
  refine ⟨⟨hranked _ (by decide), hplugins, ?_⟩, hranked _ (by decide), ?_⟩
  · intro o ho o' ho'
    obtain ⟨r, _, rfl⟩ := List.mem_map.mp ho'
    exact mayPrecede_of_lt (hearly o ho)
  · intro o ho o' ho'
    apply mayPrecede_of_lt
    have hlt := hlate o' ho'
    rcases List.mem_append.mp ho with ho | ho
    · have hrank := hearly o ho
      omega
    · obtain ⟨r, _, rfl⟩ := List.mem_map.mp ho
      exact hlt

/-- The loop has built the plugins of the registry, and has put the registry back. -/
theorem buildRegistered_builds {prog : Program V C T} {order : HashOrder}
    (h : buildRegistered prog order app = .ok app') :
    ∃ built after, built.Perm app.pluginRegistry.refs ∧ DependenciesFirst built ∧
      buildAll prog { app with pluginRegistry := .empty } built = .ok after ∧
      app' = { after with pluginRegistry := app.pluginRegistry } := by
  let l := order.iter app.pluginRegistry
  rw [buildRegistered_eq] at h
  obtain ⟨after, hafter, h⟩ := bind_ok.mp h
  have hleft : (pluginRules.rounds ∅ l).2 = [] := by
    by_contra hne
    rw [if_neg hne] at h
    cases h
  rw [if_pos hleft, Except.ok.injEq] at h
  have hrounds := pluginRules.rounds_perm ∅ l
  rw [hleft, List.append_nil] at hrounds
  exact ⟨_, after, hrounds.trans (order.perm _),
    fires_iff_dependenciesFirst.mp (pluginRules.rounds_fires ∅ l), hafter, h.symm⟩

/-- The hooks of a builder that is ready to schedule are there in the order of their origins. -/
theorem prepare_batches (horigin : HooksFrom code origin)
    (hsetup : ∀ hook ∈ app.shutdownHooks, origin hook = .setup)
    (h : prepare code app = .ok app') :
    ∃ entry built, collect code.prog app = .ok entry ∧
      built.Perm entry.pluginRegistry.refs ∧ DependenciesFirst built ∧
      Batches origin (origins built) app'.shutdownHooks := by
  rw [prepare] at h
  obtain ⟨plugged, hplugged, h⟩ := bind_ok.mp h
  obtain ⟨injected, hinjected, h⟩ := bind_ok.mp h
  obtain ⟨entry, registered, hentry, hregistered, hlistened⟩ := buildPlugins_ok hplugged
  obtain ⟨built, after, hperm, hfirst, hbuilt, rfl⟩ := buildRegistered_builds hregistered
  refine ⟨entry, built, hentry, hperm, hfirst, ?_⟩
  have hbefore := collect_batches horigin hsetup hentry
  have hentered : Batches origin earlyOrigins
      ({ entry with pluginRegistry := .empty } : AppBuilder V C T).shutdownHooks := hbefore
  have hloop := buildAll_batches horigin hentered hbuilt
  have hlater : Adds origin .pluginsBuilt after.shutdownHooks plugged.shutdownHooks :=
    horigin.onPluginsBuilt { after with pluginRegistry := entry.pluginRegistry } plugged hlistened
  have hplugins := hloop.snoc hlater
  rw [← autoInjectService_hooks (orPanic_ok.mp hinjected)] at hplugins
  have hservices : AddsHooks origin .servicesInjected injected.app app' := by
    cases hresult : injected.result with
    | ok u =>
      rw [hresult] at h
      exact horigin.onServicesInjected _ _ h
    | error e =>
      rw [hresult] at h
      cases h
  have hall := hplugins.snoc hservices
  rw [List.append_assoc] at hall
  exact hall

end

/-! ## The shutdown -/

def hookOf : Event T → Option T
  | .hook hook => some hook
  | _ => none

/-- The hooks that were called, in this order. -/
def hooksCalled (trace : List (Event T)) : List T := trace.filterMap hookOf

/-- How `schedule` deals with the hooks of the builder. -/
structure ShutsDown (cl : Closures V C T) (builder : AppBuilder V C T) (stage : Stage T) :
    Prop where
  popped : hooksCalled stage.trace <+: builder.shutdownHooks.reverse
  after_tasks : ∀ before hook after, stage.trace = before ++ .hook hook :: after →
    ∀ task ∈ builder.schedulers, .joined task ∈ before
  after_ok : ∀ before hook after, hooksCalled stage.trace = before ++ hook :: after →
    after ≠ [] → ∃ msg, cl.hook builder.buildApp hook = .ok msg
  complete : stage.result = .ok () → hooksCalled stage.trace = builder.shutdownHooks.reverse

theorem hooksCalled_append (l m : List (Event T)) :
    hooksCalled (l ++ m) = hooksCalled l ++ hooksCalled m :=
  List.filterMap_append

theorem hook_mem_of_hooksCalled {l : List (Event T)} {hook : T} :
    hook ∈ hooksCalled l ↔ .hook hook ∈ l := by
  rw [hooksCalled, List.mem_filterMap]
  constructor
  · rintro ⟨ev, hev, h⟩
    cases ev with
    | hook hook' =>
      cases h
      exact hev
    | _ => cases h
  · intro h
    exact ⟨_, h, rfl⟩

theorem runHooks_called (cl : Closures V C T) (app : App V C) (hooks : List T) :
    ∃ called rest, hooks = called ++ rest ∧ (runHooks cl app hooks).trace = called.map .hook ∧
      ((runHooks cl app hooks).result = .ok () → rest = []) ∧
      ∀ before hook after, called = before ++ hook :: after →
        after ≠ [] ∨ (runHooks cl app hooks).result = .ok () →
        ∃ msg, cl.hook app hook = .ok msg := by
  induction hooks with
  | nil => exact ⟨[], [], rfl, rfl, fun _ => rfl, fun before _ _ h => by simp at h⟩
  | cons hook hooks ih =>
    obtain ⟨called, rest, hsplit, htrace, hresult, hok⟩ := ih
    cases hhook : cl.hook app hook with
    | error e =>
      have hrun : runHooks cl app (hook :: hooks) =
          { trace := [.hook hook], result := .error e } := by
        rw [runHooks, hhook]
        exact Stage.andThen_error rfl
      rw [hrun]
      refine ⟨[hook], hooks, rfl, rfl, fun h => (by cases h), ?_⟩
      intro before hook' after hcalled hlater
      have hlength := congrArg List.length hcalled
      simp only [List.length_append, List.length_cons, List.length_nil] at hlength
      have hafter : after = [] := List.length_eq_zero_iff.mp (by omega)
      rcases hlater with hlater | hlater
      · exact absurd hafter hlater
      · cases hlater
    | ok msg =>
      have hrun : runHooks cl app (hook :: hooks) =
          { trace := .hook hook :: (runHooks cl app hooks).trace,
            result := (runHooks cl app hooks).result } := by
        rw [runHooks, hhook]
        exact Stage.andThen_ok rfl
      rw [hrun]
      refine ⟨hook :: called, rest, by rw [hsplit]; rfl, by rw [htrace]; rfl, hresult, ?_⟩
      intro before hook' after hcalled hlater
      cases before with
      | nil =>
        cases hcalled
        exact ⟨msg, hhook⟩
      | cons first before =>
        cases hcalled
        exact hok before hook' after rfl hlater

theorem hook_not_mem_joinAll (cl : Closures V C T) (app : App V C) (handles : List T)
    (hook : T) : .hook hook ∉ (joinAll cl app handles).trace := by
  induction handles with
  | nil => exact List.not_mem_nil
  | cons task handles ih =>
    unfold joinAll
    rw [Stage.mem_andThen (by simp)]
    exact fun h => ih h.2

/-- What comes before the hooks when all of it returns `Ok`. -/
def beforeHooks (builder : AppBuilder V C T) : List (Event T) :=
  builder.schedulers.map .spawned ++ (builder.schedulers.reverse.map .joined ++
    [.shutdown .beforeHooks])

theorem hook_not_mem_beforeHooks (builder : AppBuilder V C T) (hook : T) :
    .hook hook ∉ builder.beforeHooks := by
  simp [beforeHooks]

theorem joined_mem_beforeHooks {builder : AppBuilder V C T} {task : T}
    (h : task ∈ builder.schedulers) : .joined task ∈ builder.beforeHooks := by
  rw [beforeHooks, List.mem_append, List.mem_append]
  exact Or.inr (Or.inl (List.mem_map_of_mem (List.mem_reverse.mpr h)))

def hooksThenEvent (cl : Closures V C T) (builder : AppBuilder V C T) : Stage T :=
  (runHooks cl builder.buildApp builder.shutdownHooks.reverse).andThen
    (publishShutdown cl builder.buildApp .afterHooks)

/-- `schedule` fails before the hooks, or it comes to them when everything else is over. -/
theorem schedule_cases (cl : Closures V C T) (builder : AppBuilder V C T) :
    ((∀ hook, .hook hook ∉ (schedule cl builder).trace) ∧ (schedule cl builder).result ≠ .ok ()) ∨
    schedule cl builder =
      { trace := builder.beforeHooks ++ (hooksThenEvent cl builder).trace,
        result := (hooksThenEvent cl builder).result } := by
  unfold schedule
  cases hbuilt : cl.onAppBuilt builder.buildApp with
  | error e =>
    rw [Stage.andThen_error hbuilt]
    exact Or.inl ⟨fun _ => List.not_mem_nil, by simp⟩
  | ok u =>
    rw [Stage.andThen_ok hbuilt, Stage.andThen_ok (show (spawnAll _).result = .ok () from rfl)]
    cases hjoin : (joinAll cl builder.buildApp builder.schedulers.reverse).result with
    | error e =>
      rw [Stage.andThen_error hjoin]
      refine Or.inl ⟨fun hook => ?_, by simp⟩
      simp [spawnAll, hook_not_mem_joinAll]
    | ok u =>
      rw [Stage.andThen_ok hjoin, joinAll_trace_of_ok hjoin]
      cases hevent : (publishShutdown cl builder.buildApp .beforeHooks).result with
      | error e =>
        rw [Stage.andThen_error hevent]
        refine Or.inl ⟨fun hook => ?_, by simp⟩
        simp [spawnAll, publishShutdown]
      | ok u =>
        rw [Stage.andThen_ok hevent]
        refine Or.inr ?_
        simp [spawnAll, publishShutdown, beforeHooks, hooksThenEvent]

theorem hooksThenEvent_called (cl : Closures V C T) (builder : AppBuilder V C T) :
    hooksCalled (hooksThenEvent cl builder).trace =
      hooksCalled (runHooks cl builder.buildApp builder.shutdownHooks.reverse).trace := by
  unfold hooksThenEvent
  cases h : (runHooks cl builder.buildApp builder.shutdownHooks.reverse).result with
  | ok u =>
    rw [Stage.andThen_ok h, hooksCalled_append]
    exact List.append_nil _
  | error e => rw [Stage.andThen_error h]

theorem hooksCalled_map (hooks : List T) : hooksCalled (hooks.map .hook) = hooks := by
  rw [hooksCalled, List.filterMap_map]
  exact List.filterMap_some

theorem hooksCalled_eq_nil {l : List (Event T)} (h : ∀ hook, .hook hook ∉ l) :
    hooksCalled l = [] :=
  List.eq_nil_iff_forall_not_mem.mpr fun hook hmem => h hook (hook_mem_of_hooksCalled.mp hmem)

theorem schedule_shutsDown (cl : Closures V C T) (builder : AppBuilder V C T) :
    ShutsDown cl builder (schedule cl builder) := by
  rcases schedule_cases cl builder with ⟨hnone, hfails⟩ | hcomes
  · have hcalled := hooksCalled_eq_nil hnone
    constructor
    · rw [hcalled]
      exact List.nil_prefix
    · intro before hook after htrace
      refine absurd ?_ (hnone hook)
      rw [htrace]
      exact List.mem_append_right _ List.mem_cons_self
    · intro before hook after hsplit
      rw [hcalled] at hsplit
      simp at hsplit
    · exact fun hresult => absurd hresult hfails
  · obtain ⟨called, rest, hsplit, htrace, hresult, hok⟩ :=
      runHooks_called cl builder.buildApp builder.shutdownHooks.reverse
    have hfront := hooksCalled_eq_nil (hook_not_mem_beforeHooks builder)
    have hcalled : hooksCalled (schedule cl builder).trace = called := by
      rw [hcomes, hooksCalled_append, hfront, hooksThenEvent_called, htrace, hooksCalled_map]
      rfl
    constructor
    · rw [hcalled, hsplit]
      exact List.prefix_append _ _
    · intro before hook after hev task htask
      rw [hcomes] at hev
      -- the hook is not among what comes before the hooks, so all of that is before it
      rcases List.append_eq_append_iff.mp hev with ⟨mid, rfl, _⟩ | ⟨mid, hlong, hafter⟩
      · exact List.mem_append_left _ (joined_mem_beforeHooks htask)
      · cases mid with
        | nil =>
          rw [List.append_nil] at hlong
          rw [← hlong]
          exact joined_mem_beforeHooks htask
        | cons ev mid =>
          cases hafter
          refine absurd ?_ (hook_not_mem_beforeHooks builder hook)
          rw [hlong]
          exact List.mem_append_right _ List.mem_cons_self
    · intro before hook after hev hafter
      rw [hcalled] at hev
      exact hok before hook after hev (Or.inl hafter)
    · intro h
      rw [hcomes] at h
      have hrun := hresult (Stage.andThen_result_ok.mp h).1
      rw [hcalled, hsplit, hrun, List.append_nil]

/-! ## The whole run -/

section
variable {code : AppCode V C T} {origin : T → Origin} {app : AppBuilder V C T} {stage : Stage T}

/-- Of two hooks that were called, the first one's plugin is none that the other's depends on,
and what the second one belongs to had its turn in the start-up no later than the first. -/
def InDependencyOrder (origin : T → Origin) (plugins : List Plugin) (hooks : List T) : Prop :=
  hooks.Pairwise fun first later => Origin.MayPrecede plugins (origin later) (origin first)

/-- A hook that fails keeps those of the plugins below its own from being called. -/
def FailureSpares (cl : Closures V C T) (app : App V C) (origin : T → Origin)
    (plugins : List Plugin) (hooks : List T) : Prop :=
  ∀ failed ∈ hooks, (∀ msg, cl.hook app failed ≠ .ok msg) →
    ∀ hook ∈ hooks, ∀ name dep, origin failed = .plugin name → origin hook = .plugin dep →
      ¬ Relation.TransGen (DependsOn plugins) name dep

theorem failureSpares {cl : Closures V C T} {builder : AppBuilder V C T} {plugins : List Plugin}
    (hshuts : ShutsDown cl builder stage)
    (horder : InDependencyOrder origin plugins (hooksCalled stage.trace))
    (hrefl : ∀ hook ∈ hooksCalled stage.trace,
      Origin.MayPrecede plugins (origin hook) (origin hook)) :
    FailureSpares cl builder.buildApp origin plugins (hooksCalled stage.trace) := by
  intro failed hfailed hfails hook hhook name dep hname hdep
  obtain ⟨before, after, hsplit⟩ := List.append_of_mem hfailed
  -- the failed one is the last
  have hlast : after = [] := by
    by_contra hmore
    obtain ⟨msg, hmsg⟩ := hshuts.after_ok before failed after hsplit hmore
    exact hfails msg hmsg
  rw [hlast] at hsplit
  rw [hsplit] at hhook
  rcases List.mem_append.mp hhook with hbefore | hself
  · unfold InDependencyOrder at horder
    rw [hsplit, List.pairwise_append] at horder
    have hmay := horder.2.2 hook hbefore failed List.mem_cons_self
    exact hmay.2 name dep hname hdep
  · obtain rfl := List.mem_singleton.mp hself
    exact (hrefl hook hfailed).2 name dep hname hdep

/-- When `run` returns from `schedule`, hooks have been called from the last added on, after
every task was joined, and those of a plugin before those of the plugins it depends on. -/
theorem shutdown_respects_dependencies (horigin : HooksFrom code origin)
    (hsetup : ∀ hook ∈ app.shutdownHooks, origin hook = .setup)
    (h : innerRun code app = .ok stage) :
    ∃ entry builder, collect code.prog app = .ok entry ∧ prepare code app = .ok builder ∧
      ShutsDown code.closures builder stage ∧
      InDependencyOrder origin (entry.pluginRegistry.refs.map PluginRef.plugin)
        (hooksCalled stage.trace) ∧
      FailureSpares code.closures builder.buildApp origin
        (entry.pluginRegistry.refs.map PluginRef.plugin) (hooksCalled stage.trace) := by
  rw [innerRun] at h
  obtain ⟨builder, hbuilder, h⟩ := bind_ok.mp h
  cases h
  obtain ⟨entry, built, hentry, hperm, hfirst, hbatches⟩ := prepare_batches horigin hsetup hbuilder
  let plugins := entry.pluginRegistry.refs.map PluginRef.plugin
  have hnodup : (built.map PluginRef.name).Nodup :=
    (hperm.map _).nodup_iff.mpr entry.pluginRegistry.nodup
  have hbuilt : ∀ p, p ∈ plugins ↔ ∃ r ∈ built, r.plugin = p := by
    intro p
    rw [← List.mem_map, (hperm.map PluginRef.plugin).mem_iff]
  have hrefl := origins_refl hfirst hnodup hbuilt
  have hstack := hbatches.pairwise (origins_pairwise hfirst hnodup hbuilt) hrefl
  have hshuts := schedule_shutsDown code.closures builder
  have horder : InDependencyOrder origin plugins
      (hooksCalled (builder.schedule code.closures).trace) :=
    (List.pairwise_reverse.mpr hstack).sublist hshuts.popped.sublist
  refine ⟨entry, builder, hentry, hbuilder, hshuts, horder, failureSpares hshuts horder ?_⟩
  intro hook hhook
  apply hrefl
  apply hbatches.origin_mem
  exact List.mem_reverse.mp (hshuts.popped.subset hhook)

end

namespace Sample

/-- Every plugin closes what it has opened; `redisPlugin` was added by hand. -/
def closing : AppCode Unit Unit String where
  prog := { program with build := fun p app => .ok (app.addShutdownHook p.name) }
  order := .insertion
  inj := {
    typeName := fun _ => ""
    getConfig := fun _ _ => .ok ()
    call := fun _ _ => ()
    construct := fun _ _ => ()
    builder := ()
    addService := fun _ _ _ => () }
  registrars := []
  onServicesInjected := .ok
  closures := {
    task := fun _ _ => .ok ""
    hook := fun _ hook => .ok hook
    onAppBuilt := fun _ => .ok ()
    onShutdown := fun _ _ => .ok () }

def started : AppBuilder Unit Unit String :=
  { app with
    pluginRegistry := { refs := [PluginRef.new redisPlugin], nodup := List.nodup_singleton _ } }

theorem collected_nodup :
    ([PluginRef.new redisPlugin, PluginRef.ofStatic apalisPlugin].map PluginRef.name).Nodup := by
  decide

def collected : AppBuilder Unit Unit String :=
  { app with
    pluginRegistry := {
      refs := [PluginRef.new redisPlugin, PluginRef.ofStatic apalisPlugin]
      nodup := collected_nodup } }

def prepared : AppBuilder Unit Unit String :=
  { collected with shutdownHooks := [redisPlugin.name, apalisPlugin.name] }

theorem prepare_started : prepare closing started = .ok prepared := by
  have hfires : pluginRules.Fires ∅ (closing.order.iter collected.pluginRegistry) :=
    ⟨ready_iff.mpr nofun, ready_iff.mpr (by decide), trivial⟩
  have hregistered : buildRegistered closing.prog closing.order collected = .ok prepared := by
    rw [buildRegistered_eq, pluginRules.rounds_of_fires hfires]
    rfl
  have hplugins : buildPlugins closing.prog closing.order started = .ok prepared := by
    show orPanic (buildRegistered closing.prog closing.order collected) >>= _ = _
    rw [hregistered]
    rfl
  have hinject : autoInjectService closing.inj prepared closing.registrars = .ok _ :=
    injectLoop_nil ..
  rw [prepare, hplugins]
  show orPanic (autoInjectService closing.inj prepared closing.registrars) >>= _ = _
  rw [hinject]
  rfl

theorem closing_hooksFrom : HooksFrom closing .plugin where
  immediatelyBuild := fun _ _ _ h => by
    cases h
    exact .refl _ _
  onConfigEvent := fun _ _ h => by
    cases h
    exact .refl _ _
  logPlugin := fun _ _ h => by
    cases h
    exact .refl _ _
  build := fun p app _ h => by
    cases h
    exact ⟨[p.name], rfl, by simp⟩
  onPluginsBuilt := fun _ _ h => by
    cases h
    exact .refl _ _
  onServicesInjected := fun _ _ h => by
    cases h
    exact .refl _ _

end Sample

/-- The hook of the plugin that depends on the other one is called first. -/
theorem shutdown_respects_dependencies_sample :
    hooksCalled (Sample.prepared.schedule Sample.closing.closures).trace =
        ["summer_apalis::ApalisPlugin", "summer_redis::RedisPlugin"] ∧
      ∃ entry builder, collect Sample.closing.prog Sample.started = .ok entry ∧
        prepare Sample.closing Sample.started = .ok builder ∧
        ShutsDown Sample.closing.closures builder
          (Sample.prepared.schedule Sample.closing.closures) ∧
        InDependencyOrder .plugin (entry.pluginRegistry.refs.map PluginRef.plugin)
          (hooksCalled (Sample.prepared.schedule Sample.closing.closures).trace) ∧
        FailureSpares Sample.closing.closures builder.buildApp .plugin
          (entry.pluginRegistry.refs.map PluginRef.plugin)
          (hooksCalled (Sample.prepared.schedule Sample.closing.closures).trace) :=
  ⟨by decide, shutdown_respects_dependencies Sample.closing_hooksFrom
    (fun _ h => absurd h List.not_mem_nil) (by
      rw [innerRun, Sample.prepare_started]
      rfl)⟩

end AppBuilder

end Summer
